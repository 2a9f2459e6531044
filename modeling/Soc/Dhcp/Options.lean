import Mathlib.Tactic.SplitIfs
import Soc.Dhcp.Client
import Soc.Libnet.Layout

/-!
# Options in a message

What `dhcp_parse_options` reads and what it understands of the 68 bytes of options. It takes a type
and a length byte for every option and adds up the lengths alone, so it stays in the field only if
no option it comes to lies behind (`reads_options_iff`), and it loses its way at a PAD and stops at
an empty option (`options_understood`).
-/

namespace Soc.Dhcp

open Libbase (Access readByte)
open Library (Traced)
open Libnet (Slot readWord)

/-- The types whose values are read. -/
def Known (optionType : Byte) : Prop :=
  optionType = 54 ∨ optionType = 1 ∨ optionType = 3 ∨ optionType = 6

/-- `Known` compares bytes. -/
instance (optionType : Byte) : Decidable (Known optionType) := inferInstanceAs (Decidable (_ ∨ _))

section Reads

variable {mem : Slot} {base options : Int}

/-- Reads of the options of a message. -/
def InOptions (base : Int) : Access → Prop
  | .byte address => base ≤ address ∧ address < base + 68
  | .crc _ => False

/-- What is read of an option lies before the end of the options: its type, its length unless it is
END, and four bytes of its value if it is known. -/
def OptionFits (mem : Slot) (base options : Int) : Prop :=
  options < base + 68 ∧ (mem options ≠ 0xff →
    options + 1 < base + 68 ∧ (Known (mem options) → options + 5 < base + 68))

/-- `k` options, each with a length byte from 1 to 68 and none of them END, lead from one address to
another. -/
inductive Options (mem : Slot) : Int → Nat → Int → Prop where
  | here (options : Int) : Options mem options 0 options
  | next {options options' : Int} {k : Nat} (htype : mem options ≠ 0xff)
      (hpos : mem (options + 1) ≠ 0) (hlen : (mem (options + 1)).toNat ≤ 68)
      (h : Options mem (options + (mem (options + 1)).toNat + 2) k options') :
      Options mem options (k + 1) options'

/-- An option takes two bytes and its value. -/
theorem Options.le {k : Nat} {options' : Int} (h : Options mem options k options') :
    options + 2 * k ≤ options' := by
  induction h with
  | here options => omega
  | next _ _ _ _ ih => omega

/-- A length that is not 0. -/
theorem toNat_pos {len : Byte} (h : len ≠ 0) : 0 < len.toNat :=
  Nat.pos_of_ne_zero fun hzero => h (BitVec.eq_of_toNat_eq hzero)

/-- Reading the byte of an option. -/
theorem within_optionByte : (readByte mem options).Within (InOptions base) ↔
    base ≤ options ∧ options < base + 68 :=
  Traced.within_touch_iff _

/-- Reading the value of an option. -/
theorem within_optionValue : (readWord mem options).Within (InOptions base) ↔
    base ≤ options ∧ options + 3 < base + 68 := by
  simp only [readWord, Traced.within_bind_iff, within_optionByte, Traced.within_pure_iff, and_true]
  omega

/-- The value of an option is read if its type is known. -/
def learnOption (mem : Slot) (options : Int) (d : Statics) (optionType : Byte) :
    Traced Access Statics :=
  if optionType = 54 ∨ optionType = 1 ∨ optionType = 3 ∨ optionType = 6 then do
    pure (d.learn optionType (← readWord mem (options + 2)))
  else pure d

/-- An option of another type is not learnt. -/
theorem learn_of_not_known {optionType : Byte} (h : ¬ Known optionType) (d : Statics)
    (value : Word) : d.learn optionType value = d := by
  simp only [Known, not_or] at h
  simp only [Statics.learn, h, if_false]

/-- What is learnt of an option. -/
theorem value_learnOption (d : Statics) (optionType : Byte) :
    (learnOption mem options d optionType).value =
      d.learn optionType (readWord mem (options + 2)).value := by
  by_cases h : Known optionType
  · exact congrArg Traced.value (if_pos h)
  · rw [learn_of_not_known h]
    exact congrArg Traced.value (if_neg h)

/-- What is read of its value. -/
theorem within_learnOption {d : Statics} {optionType : Byte} (hbase : base ≤ options) :
    (learnOption mem options d optionType).Within (InOptions base) ↔
      (Known optionType → options + 5 < base + 68) := by
  by_cases h : Known optionType
  · rw [learnOption, if_pos (show optionType = 54 ∨ _ from h), Traced.within_bind_iff,
      within_optionValue]
    simp only [Traced.within_pure_iff, and_true, h, true_imp_iff]
    omega
  · rw [learnOption, if_neg (show ¬ (optionType = 54 ∨ _) from h)]
    simp only [Traced.within_pure_iff, h, false_imp_iff]

/-- An iteration of the loop. -/
theorem parseFrom_of_lt {parsed : Nat} (hparsed : parsed < 68) (d : Statics) :
    parseFrom mem options parsed d = (do
      let optionType ← readByte mem options
      if optionType = 0xff then return d
      let d ← learnOption mem options d optionType
      let optionLen ← readByte mem (options + 1)
      if optionLen = 0 ∨ 68 < optionLen.toNat then return d
      parseFrom mem (options + optionLen.toNat + 2) (parsed + optionLen.toNat) d) := by
  rw [parseFrom, if_pos hparsed]
  refine congrArg (readByte mem options >>= ·) (funext fun optionType => ?_)
  by_cases hend : optionType = 0xff
  · rw [if_pos hend, if_pos hend]
  · rw [if_neg hend, if_neg hend, learnOption]
    by_cases hknown : optionType = 54 ∨ optionType = 1 ∨ optionType = 3 ∨ optionType = 6
    · rw [if_pos hknown, if_pos hknown, Traced.bind_assoc]
      rfl
    · rw [if_neg hknown, if_neg hknown]
      rfl

/-- An iteration stays in the options if the option fits and the rest of the loop does. -/
theorem within_iteration_iff {parsed : Nat} {d : Statics} (hbase : base ≤ options)
    (hparsed : parsed < 68) : (parseFrom mem options parsed d).Within (InOptions base) ↔
      OptionFits mem base options ∧ (mem options ≠ 0xff → mem (options + 1) ≠ 0 →
        (mem (options + 1)).toNat ≤ 68 →
          (parseFrom mem (options + (mem (options + 1)).toNat + 2)
            (parsed + (mem (options + 1)).toNat)
            (d.learn (mem options) (readWord mem (options + 2)).value)).Within
              (InOptions base)) := by
  have hread : ∀ address, (readByte mem address).value = mem address := fun _ => rfl
  rw [parseFrom_of_lt hparsed, Traced.within_bind_iff, within_optionByte, hread, OptionFits]
  by_cases hend : mem options = 0xff
  · rw [if_pos hend]
    simp only [Traced.within_pure_iff, ne_eq, hend, not_true, false_imp_iff, and_true]
    omega
  · rw [if_neg hend, Traced.within_bind_iff, within_learnOption hbase, value_learnOption,
      Traced.within_bind_iff, within_optionByte, hread]
    by_cases hlen : mem (options + 1) = 0 ∨ 68 < (mem (options + 1)).toNat
    · rw [if_pos hlen]
      have hstop : ¬ (mem (options + 1) ≠ 0 ∧ (mem (options + 1)).toNat ≤ 68) := by
        rintro ⟨hpos, hle⟩
        exact hlen.elim hpos (Nat.not_lt_of_le hle)
      constructor
      · rintro ⟨hfirst, hvalue, hsecond, -⟩
        exact ⟨⟨hfirst.2, fun _ => ⟨hsecond.2, hvalue⟩⟩, fun _ hpos hle => absurd ⟨hpos, hle⟩ hstop⟩
      · rintro ⟨⟨hfirst, hrest⟩, -⟩
        obtain ⟨hsecond, hvalue⟩ := hrest hend
        exact ⟨⟨hbase, hfirst⟩, hvalue, ⟨by omega, hsecond⟩, Traced.within_pure _⟩
    · rw [if_neg hlen]
      obtain ⟨hpos, hle⟩ := not_or.1 hlen
      constructor
      · rintro ⟨hfirst, hvalue, hsecond, hloop⟩
        exact ⟨⟨hfirst.2, fun _ => ⟨hsecond.2, hvalue⟩⟩, fun _ _ _ => hloop⟩
      · rintro ⟨⟨hfirst, hrest⟩, hloop⟩
        obtain ⟨hsecond, hvalue⟩ := hrest hend
        exact ⟨⟨hbase, hfirst⟩, hvalue, ⟨by omega, hsecond⟩,
          hloop hend hpos (Nat.le_of_not_lt hle)⟩

/-- The loop of `dhcp_parse_options` stays in the options if each one it comes to fits. -/
theorem within_parseFrom_iff {parsed : Nat} {d : Statics} (hbase : base ≤ options) :
    (parseFrom mem options parsed d).Within (InOptions base) ↔
      ∀ k options', Options mem options k options' →
        parsed + options' < 68 + options + 2 * k → OptionFits mem base options' := by
  induction hrest : 68 - parsed using Nat.strongRecOn generalizing options parsed d with
  | ind n ih =>
      by_cases hparsed : parsed < 68
      · rw [within_iteration_iff hbase hparsed]
        constructor
        · rintro ⟨hfits, hloop⟩ k options' hoptions hlt
          cases hoptions with
          | here => exact hfits
          | next htype hpos hlen h =>
              have hpositive := toNat_pos hpos
              refine (ih _ ?_ ?_ rfl).1 (hloop htype hpos hlen) _ _ h (by omega)
              · omega
              · omega
        · intro h
          refine ⟨h 0 options (.here options) (by omega), fun htype hpos hlen => ?_⟩
          have hpositive := toNat_pos hpos
          refine (ih _ ?_ ?_ rfl).2 fun k options' hoptions hlt => ?_
          · omega
          · omega
          · exact h (k + 1) options' (.next htype hpos hlen hoptions) (by omega)
      · rw [parseFrom, if_neg hparsed]
        refine iff_of_true (Traced.within_pure _) fun k options' h hlt => ?_
        have hle := h.le
        omega

end Reads

/-- `dhcp_parse_options` stays in the 68 bytes of options if and only if each option it comes to
fits them: the option behind `k` others, if it starts less than `68 + 2 * k` bytes from the
first. -/
theorem reads_options_iff (mem : Slot) (dhcp : Int) (d : Statics) :
    (dhcpParseOptions mem dhcp d).Within (InOptions (dhcp + 240)) ↔
      ∀ (k : Nat) (options : Int), Options mem (dhcp + 240) k options →
        options < dhcp + 240 + 68 + 2 * k → OptionFits mem (dhcp + 240) options := by
  rw [dhcpParseOptions, within_parseFrom_iff (Int.le_refl _)]
  constructor
  · intro h k options hoptions hlt
    exact h k options hoptions (by omega)
  · intro h k options hoptions hlt
    exact h k options hoptions (by omega)

/-- An OFFER whose second option fills the field to its end. -/
def filled : Slot := fun i => ([53, 1, 2, 12, 63] : List Byte).getD (i - 240).toNat 0

/-- It makes `dhcp_parse_options` look for an option behind the message. -/
theorem filled_escapes : ¬ ∀ (mem : Slot) (dhcp : Int) (d : Statics),
    (dhcpParseOptions mem dhcp d).Within (InOptions (dhcp + 240)) := by
  intro h
  have hfits := (within_parseFrom_iff (Int.le_refl _)).1 (h filled 0 .off) 2 308
    (.next (by decide) (by decide) (by decide) (.next (by decide) (by decide) (by decide)
      (.here _))) (by decide)
  exact absurd hfits.1 (by decide)

/-- An option with a value. Those that `dhcp_parse_options` reads hold an address at least. -/
structure LegalOption where
  type : Byte
  value : List Byte
  type_ne_pad : type ≠ 0
  type_ne_end : type ≠ 0xff
  length_le : value.length ≤ 255
  length_of_known : Known type → 4 ≤ value.length

/-- The first four bytes of its value. -/
def LegalOption.word (o : LegalOption) : Word :=
  o.value.getD 0 0 ++ o.value.getD 1 0 ++ o.value.getD 2 0 ++ o.value.getD 3 0

/-- What a sender may put before END. -/
inductive Item where
  | pad
  | option (o : LegalOption)

/-- The bytes of an item. -/
def Item.bytes : Item → List Byte
  | .pad => [0]
  | .option o => [o.type, BitVec.ofNat 8 o.value.length] ++ o.value

/-- An option whose value is not empty. -/
def Item.regular : Item → Bool
  | .pad => false
  | .option o => !o.value.isEmpty

/-- The options of a message are these items and END. -/
structure Layout (mem : Slot) (options : Int) (items : List Item) : Prop where
  holds : mem.Holds options (items.flatMap Item.bytes ++ [0xff])
  fits : (items.flatMap Item.bytes).length < 68

/-- The first four bytes of the last option of a type. -/
def lastValue (optionType : Byte) : List Item → Option Word
  | [] => none
  | .pad :: items => lastValue optionType items
  | .option o :: items =>
      (lastValue optionType items).or (if o.type = optionType then some o.word else none)

/-- The variables as the items set them. -/
def Statics.understand (d : Statics) (items : List Item) : Statics :=
  { d with
    mySubnetMask := (lastValue 1 items).getD d.mySubnetMask
    myRouter := (lastValue 3 items).getD d.myRouter
    myDns := (lastValue 6 items).getD d.myDns
    myDhcpServer := (lastValue 54 items).getD d.myDhcpServer }

/-- `dhcp_parse_options` sets the variables as the items say. -/
def Understood (mem : Slot) (dhcp : Int) (items : List Item) : Prop :=
  ∀ d, (dhcpParseOptions mem dhcp d).value = d.understand items

/-- The first item that is not an option with a value is a PAD that is taken for a type, with the
type of the option behind it as its length. -/
def Misread (items : List Item) : Prop :=
  ∃ o rest, items.dropWhile Item.regular = .pad :: .option o :: rest ∧ o.type.toNat ≤ 68

/-- Nothing is misread, and what stands behind the first PAD or empty option has no effect. -/
def Understandable (items : List Item) : Prop :=
  ¬ Misread items ∧
    ∀ t, Known t → lastValue t (items.takeWhile Item.regular) = lastValue t items

/-- The state and the transaction are the same. -/
def Kept (d d' : Statics) : Prop := d'.state = d.state ∧ d'.xid = d.xid

/-- Learning the value of an option changes neither the state nor the transaction. -/
theorem learn_kept (d : Statics) (optionType : Byte) (value : Word) :
    Kept d (d.learn optionType value) := by
  unfold Statics.learn
  split_ifs <;> exact ⟨rfl, rfl⟩

section Layouts

variable {mem : Slot} {options : Int} {parsed : Nat}

/-- The variables after an iteration and the rest of the loop. -/
theorem parseFrom_value (hparsed : parsed < 68) (d : Statics) :
    (parseFrom mem options parsed d).value =
      if mem options = 0xff then d
      else if mem (options + 1) = 0 ∨ 68 < (mem (options + 1)).toNat then
        d.learn (mem options) (readWord mem (options + 2)).value
      else (parseFrom mem (options + (mem (options + 1)).toNat + 2)
        (parsed + (mem (options + 1)).toNat)
        (d.learn (mem options) (readWord mem (options + 2)).value)).value := by
  have hread : ∀ address, (readByte mem address).value = mem address := fun _ => rfl
  rw [parseFrom_of_lt hparsed]
  simp only [Traced.value_bind, Traced.value_ite, Traced.value_pure, value_learnOption, hread]

/-- Parsing options changes neither the state nor the transaction. -/
theorem parseFrom_kept (mem : Slot) (options : Int) (parsed : Nat) (d : Statics) :
    Kept d (parseFrom mem options parsed d).value := by
  induction hrest : 68 - parsed using Nat.strongRecOn generalizing options parsed d with
  | ind n ih =>
      by_cases hparsed : parsed < 68
      case neg =>
        rw [parseFrom, if_neg hparsed]
        exact ⟨rfl, rfl⟩
      case pos =>
        have hlearnt := learn_kept d (mem options) (readWord mem (options + 2)).value
        rw [parseFrom_value hparsed]
        split_ifs with hend hlen
        · exact ⟨rfl, rfl⟩
        · exact hlearnt
        · have hpositive := toNat_pos (not_or.1 hlen).1
          obtain ⟨hstate, hxid⟩ := ih (68 - (parsed + (mem (options + 1)).toNat)) (by omega)
            (options + (mem (options + 1)).toNat + 2) _ _ rfl
          exact ⟨hstate.trans hlearnt.1, hxid.trans hlearnt.2⟩

/-- Items behind an option. -/
theorem understand_cons (d : Statics) (o : LegalOption) (items : List Item) :
    d.understand (.option o :: items) = (d.learn o.type o.word).understand items := by
  by_cases h54 : o.type = 54
  · simp [Statics.understand, Statics.learn, lastValue, h54]
  by_cases h1 : o.type = 1
  · simp [Statics.understand, Statics.learn, lastValue, h1]
  by_cases h3 : o.type = 3
  · simp [Statics.understand, Statics.learn, lastValue, h3]
  by_cases h6 : o.type = 6
  · simp [Statics.understand, Statics.learn, lastValue, h6]
  · rw [learn_of_not_known (by simp only [Known, h54, h1, h3, h6, or_self, not_false_iff])]
    simp only [Statics.understand, lastValue, if_neg h54, if_neg h1, if_neg h3, if_neg h6,
      Option.or_none]

/-- The word that is read of four bytes and more. -/
theorem word_of_holds {value : List Byte} (hholds : mem.Holds options value)
    (hlength : 4 ≤ value.length) : (readWord mem options).value =
      value.getD 0 0 ++ value.getD 1 0 ++ value.getD 2 0 ++ value.getD 3 0 := by
  have hbyte : ∀ k : Nat, k < 4 → mem (options + k) = value.getD k 0 := by
    intro k hk
    rw [hholds k (by omega), List.getD_eq_getElem _ _ (by omega)]
  have hzero : mem options = value.getD 0 0 := by
    rw [← hbyte 0 (by decide), Int.natCast_zero, Int.add_zero]
  rw [← hzero, ← hbyte 1 (by decide), ← hbyte 2 (by decide), ← hbyte 3 (by decide)]
  rfl

/-- The byte behind a PAD that is not misread makes the loop stop. -/
theorem stops_after_pad {rest : List Item}
    (hholds : mem.Holds options (rest.flatMap Item.bytes ++ [0xff]))
    (hmisread : ¬ Misread (.pad :: rest)) : mem options = 0 ∨ 68 < (mem options).toNat := by
  cases rest with
  | nil => exact .inr (by rw [hholds.head]; decide)
  | cons item rest =>
      cases item with
      | pad => exact .inl hholds.head
      | option o =>
          have htype : mem options = o.type := hholds.head
          rw [htype]
          exact .inr (Nat.lt_of_not_le fun hle => hmisread ⟨o, rest, rfl, hle⟩)

/-- The loop learns the value of an option and goes on behind it. -/
theorem parseFrom_option {o : LegalOption} (hitem : mem.Holds options (Item.option o).bytes)
    (hparsed : parsed + (Item.option o).bytes.length < 68) (hvalue : o.value ≠ []) (d : Statics) :
    (parseFrom mem options parsed d).value =
      (parseFrom mem (options + (Item.option o).bytes.length) (parsed + o.value.length)
        (d.learn o.type o.word)).value := by
  have hlength : (Item.option o).bytes.length = o.value.length + 2 := by simp [Item.bytes]
  have htype : mem options = o.type := hitem.head
  have hlen : mem (options + 1) = BitVec.ofNat 8 o.value.length :=
    hitem 1 (by simp [Item.bytes])
  have hpositive := List.length_pos_iff.2 hvalue
  have htoNat : (BitVec.ofNat 8 o.value.length).toNat = o.value.length := by
    rw [BitVec.toNat_ofNat]
    omega
  have hgoes : ¬ (BitVec.ofNat 8 o.value.length = 0 ∨
      68 < (BitVec.ofNat 8 o.value.length).toNat) := by
    rintro (hzero | hlong)
    · rw [hzero] at htoNat
      exact absurd htoNat (Nat.ne_of_lt hpositive)
    · omega
  have hword : d.learn o.type (readWord mem (options + 2)).value = d.learn o.type o.word := by
    by_cases hknown : Known o.type
    · have hholds : mem.Holds (options + 2) o.value := hitem.append.2
      rw [word_of_holds hholds (o.length_of_known hknown)]
      rfl
    · rw [learn_of_not_known hknown, learn_of_not_known hknown]
  rw [parseFrom_value (by omega), htype, if_neg o.type_ne_end, hlen, if_neg hgoes, htoNat, hword,
    hlength, Int.natCast_add, ← Int.add_assoc]
  rfl

/-- The loop stops at an empty option, which is not one of those it reads. -/
theorem parseFrom_empty {o : LegalOption} (hitem : mem.Holds options (Item.option o).bytes)
    (hparsed : parsed < 68) (hvalue : o.value = []) (d : Statics) :
    (parseFrom mem options parsed d).value = d := by
  have htype : mem options = o.type := hitem.head
  have hlen : mem (options + 1) = 0 := by
    have hlen : mem (options + 1) = BitVec.ofNat 8 o.value.length :=
      hitem 1 (by simp [Item.bytes])
    rw [hlen, hvalue]
    rfl
  have hunknown : ¬ Known o.type := by
    intro hknown
    have hfour := o.length_of_known hknown
    rw [hvalue] at hfour
    exact absurd hfour (by decide)
  rw [parseFrom_value hparsed, htype, if_neg o.type_ne_end, if_pos (.inl hlen),
    learn_of_not_known hunknown]

/-- The loop of `dhcp_parse_options` understands the options before the first PAD or empty option,
and stops there unless it is misread. -/
theorem parseFrom_layout {items : List Item}
    (hholds : mem.Holds options (items.flatMap Item.bytes ++ [0xff]))
    (hparsed : parsed + (items.flatMap Item.bytes).length < 68) (hmisread : ¬ Misread items)
    (d : Statics) :
    (parseFrom mem options parsed d).value = d.understand (items.takeWhile Item.regular) := by
  induction items generalizing options parsed d with
  | nil =>
      rw [parseFrom_value (by omega), if_pos hholds.head]
      rfl
  | cons item rest ih =>
      rw [List.flatMap_cons, List.append_assoc] at hholds
      rw [List.flatMap_cons, List.length_append] at hparsed
      obtain ⟨hitem, hrest⟩ := hholds.append
      cases item with
      | pad =>
          have htype : mem options = 0 := hitem.head
          have hstops : mem (options + 1) = 0 ∨ 68 < (mem (options + 1)).toNat :=
            stops_after_pad hrest hmisread
          rw [parseFrom_value (by omega), htype, if_neg (by decide), if_pos hstops,
            learn_of_not_known (by decide)]
          rfl
      | option o =>
          by_cases hempty : o.value = []
          · rw [parseFrom_empty hitem (by omega) hempty, List.takeWhile_cons, Item.regular, hempty]
            rfl
          · have hregular : (Item.option o).regular = true := by
              rw [Item.regular]
              simp [hempty]
            have hskip : ¬ Misread rest := by
              rintro ⟨o', rest', hdrop, hle⟩
              refine hmisread ⟨o', rest', ?_, hle⟩
              rw [List.dropWhile_cons, if_pos hregular, hdrop]
            have hlength : (Item.option o).bytes.length = o.value.length + 2 := by
              simp [Item.bytes]
            rw [parseFrom_option hitem (by omega) hempty, List.takeWhile_cons, if_pos hregular,
              understand_cons]
            exact ih hrest (by omega) hskip _

end Layouts

/-- A word is not the next one. -/
theorem ne_add_one (value : Word) : value ≠ value + 1 := by
  bv_omega

/-- Two values that are the same whatever the default are the same option. -/
theorem eq_of_getD {a b : Option Word} (h : ∀ x, a.getD x = b.getD x) : a = b := by
  cases a with
  | none =>
      cases b with
      | none => rfl
      | some v => exact absurd (h (v + 1)).symm (ne_add_one v)
  | some u =>
      cases b with
      | none => exact absurd (h (u + 1)) (ne_add_one u)
      | some v => exact congrArg some (h 0)

/-- A message is understood if nothing in it is misread and no option of the four types is lost
behind the first PAD or empty option. If nothing is misread, it is understood only then; behind a
PAD that is misread the loop is out of step, and may come to the same values by luck. -/
theorem options_understood (mem : Slot) (dhcp : Int) (items : List Item)
    (h : Layout mem (dhcp + 240) items) :
    (Understandable items → Understood mem dhcp items) ∧
      (¬ Misread items → Understood mem dhcp items → Understandable items) := by
  have hparse : ¬ Misread items → ∀ d, (dhcpParseOptions mem dhcp d).value =
      d.understand (items.takeWhile Item.regular) := fun hmisread d =>
    parseFrom_layout h.holds (by rw [Nat.zero_add]; exact h.fits) hmisread d
  constructor
  · rintro ⟨hmisread, hsame⟩ d
    rw [hparse hmisread, Statics.understand, Statics.understand, hsame 1 (by decide),
      hsame 3 (by decide), hsame 6 (by decide), hsame 54 (by decide)]
  · intro hmisread hunderstood
    have heq : ∀ d : Statics, d.understand (items.takeWhile Item.regular) = d.understand items :=
      fun d => (hparse hmisread d).symm.trans (hunderstood d)
    refine ⟨hmisread, ?_⟩
    rintro t (rfl | rfl | rfl | rfl)
    · exact eq_of_getD fun x =>
        congrArg Statics.myDhcpServer (heq { Statics.off with myDhcpServer := x })
    · exact eq_of_getD fun x =>
        congrArg Statics.mySubnetMask (heq { Statics.off with mySubnetMask := x })
    · exact eq_of_getD fun x =>
        congrArg Statics.myRouter (heq { Statics.off with myRouter := x })
    · exact eq_of_getD fun x => congrArg Statics.myDns (heq { Statics.off with myDns := x })

/-- The type of an ACK. -/
def ackType : LegalOption := ⟨53, [5], by decide, by decide, by decide, by decide⟩

/-- A subnet mask. -/
def mask : LegalOption := ⟨1, [255, 255, 255, 0], by decide, by decide, by decide, by decide⟩

/-- A message with these options. -/
def messageOf (items : List Item) : Slot :=
  Slot.put (fun _ => 0) 240 (items.flatMap Item.bytes ++ [0xff])

/-- A message with PADs at its end is understood. -/
theorem options_understood_mask :
    Understood (messageOf [.option ackType, .option mask, .pad, .pad]) 0
      [.option ackType, .option mask, .pad, .pad] := by
  refine (options_understood _ 0 _ ⟨Slot.holds_put, by decide⟩).1 ⟨?_, fun t _ => rfl⟩
  rintro ⟨o, rest, hdrop, -⟩
  cases hdrop

/-- A subnet mask behind two PADs is lost. -/
theorem pads_lose_mask : ¬ ∀ (mem : Slot) (dhcp : Int) (items : List Item),
    Layout mem (dhcp + 240) items → Understood mem dhcp items := by
  intro h
  have hlayout : Layout (messageOf [.option ackType, .pad, .pad, .option mask]) (0 + 240)
      [.option ackType, .pad, .pad, .option mask] := ⟨Slot.holds_put, by decide⟩
  have hmisread : ¬ Misread [.option ackType, .pad, .pad, .option mask] := by
    rintro ⟨o, rest, hdrop, -⟩
    cases hdrop
  have hstops := parseFrom_layout hlayout.holds (show 0 + _ < 68 by decide) hmisread .off
  have hmask := (h _ 0 _ hlayout .off).symm.trans hstops
  exact absurd hmask (by decide)

end Soc.Dhcp
