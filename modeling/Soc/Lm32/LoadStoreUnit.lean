import Soc.Lm32.Decoder

/-!
# The load/store unit of the LM32

`lm32_load_store_unit.v` without a data cache: a store goes to the data bus when it leaves the M
stage, and a load waits in the M stage until its transfer is over. The lanes, the word that is
stored and the part of a word that is loaded are those of the instruction set.
-/

namespace Soc.Lm32

section Lanes

/-- `store_data_x`. No load or store has the size 01, for which the source leaves the outputs of
this unit undefined. -/
def storeDataX (sizeX : BitVec 2) (storeOperandX : Word) : Word :=
  match sizeX with
  | 0b00 =>
      storeOperandX.extractLsb' 0 8 ++ storeOperandX.extractLsb' 0 8 ++
        storeOperandX.extractLsb' 0 8 ++ storeOperandX.extractLsb' 0 8
  | 0b11 => storeOperandX.extractLsb' 0 16 ++ storeOperandX.extractLsb' 0 16
  | 0b10 => storeOperandX
  | 0b01 => 0

/-- `byte_enable_x`. -/
def byteEnableX (sizeX : BitVec 2) (address : BitVec 2) : BitVec 4 :=
  match sizeX, address with
  | 0b00, 0b11 => 0b0001
  | 0b00, 0b10 => 0b0010
  | 0b00, 0b01 => 0b0100
  | 0b00, 0b00 => 0b1000
  | 0b11, 0b10 => 0b0011
  | 0b11, 0b11 => 0b0011
  | 0b11, 0b00 => 0b1100
  | 0b11, 0b01 => 0b1100
  | 0b10, _ => 0b1111
  | 0b01, _ => 0

/-- `{{n{sign_extend_w & data[n-1]}}, data}`. -/
def extendData {n : Nat} (signExtendW : Bool) (v : BitVec n) : Word :=
  if signExtendW then v.signExtend 32 else v.setWidth 32

/-- `load_data_w`. -/
def loadData (sizeW : BitVec 2) (address : BitVec 2) (signExtendW : Bool) (dataW : Word) : Word :=
  match sizeW, address with
  | 0b00, 0b11 => extendData signExtendW (dataW.extractLsb' 0 8)
  | 0b00, 0b10 => extendData signExtendW (dataW.extractLsb' 8 8)
  | 0b00, 0b01 => extendData signExtendW (dataW.extractLsb' 16 8)
  | 0b00, 0b00 => extendData signExtendW (dataW.extractLsb' 24 8)
  | 0b11, 0b10 => extendData signExtendW (dataW.extractLsb' 0 16)
  | 0b11, 0b11 => extendData signExtendW (dataW.extractLsb' 0 16)
  | 0b11, 0b00 => extendData signExtendW (dataW.extractLsb' 16 16)
  | 0b11, 0b01 => extendData signExtendW (dataW.extractLsb' 16 16)
  | 0b10, _ => dataW
  | 0b01, _ => 0

variable (size : Size) (adr : Word)

/-- The word that is stored. -/
theorem storeDataX_code (value : Word) : storeDataX size.code value = size.spread value := by
  cases size with
  | byte => rfl
  | hword => rfl
  | word => rfl

/-- The two low bits of an address. -/
theorem low_address (adr : Word) : adr.getLsbD 1 = (adr.extractLsb' 0 2).getLsbD 1 := by
  rw [BitVec.getLsbD_extractLsb']
  rfl

/-- The lanes of an access. -/
theorem byteEnableX_code :
    byteEnableX size.code (adr.extractLsb' 0 2) = size.lanes adr := by
  cases size with
  | byte =>
      change _ = 0b1000#4 >>> adr.extractLsb' 0 2
      rcases two_bits (adr.extractLsb' 0 2) with h | h | h | h <;> rw [h] <;> rfl
  | hword =>
      change _ = if adr.getLsbD 1 then 0b0011#4 else 0b1100#4
      rw [low_address]
      rcases two_bits (adr.extractLsb' 0 2) with h | h | h | h <;> rw [h] <;> rfl
  | word => rfl

/-- The value that is loaded. Words are not extended. -/
theorem loadData_code {signed signExtend : Bool} (h : size = .word ∨ signExtend = signed)
    (data : Word) :
    loadData size.code (adr.extractLsb' 0 2) signExtend data = size.part signed adr data := by
  cases size with
  | byte =>
      obtain rfl := h.resolve_left (by decide)
      change _ = extendData signExtend
        (data.extractLsb' (8 * (3 - (adr.extractLsb' 0 2).toNat)) 8)
      rcases two_bits (adr.extractLsb' 0 2) with h | h | h | h <;> rw [h] <;> rfl
  | hword =>
      obtain rfl := h.resolve_left (by decide)
      change _ = extendData signExtend (data.extractLsb' (if adr.getLsbD 1 then 0 else 16) 16)
      rw [low_address]
      rcases two_bits (adr.extractLsb' 0 2) with h | h | h | h <;> rw [h] <;> rfl
  | word => rfl

end Lanes

/-- The registers of `lm32_load_store_unit`. `d_stb_o` is `d_cyc_o`. -/
structure LoadStoreUnit where
  dCycO : Bool
  dDatO : Word
  dAdrO : Word
  dSelO : BitVec 4
  dWeO : Bool
  wbDataM : Word
  wbLoadComplete : Bool
  stallWbLoad : Bool
  signExtendM : Bool
  sizeM : BitVec 2
  byteEnableM : BitVec 4
  storeDataM : Word
  wbSelectM : Bool
  sizeW : BitVec 2
  dataW : Word
  signExtendW : Bool

/-- What the pipeline and the data bus present in a cycle. -/
structure LoadStoreIn where
  stallX : Bool
  stallM : Bool
  killM : Bool
  exceptionM : Bool
  storeOperandX : Word
  addressX : Word
  addressM : Word
  loadQX : Bool
  loadQM : Bool
  storeQM : Bool
  signExtendX : Bool
  sizeX : BitVec 2
  dDatI : Word
  dAckI : Bool
  dErrI : Bool

namespace LoadStoreUnit

/-- `rst_i`. -/
def reset : LoadStoreUnit where
  dCycO := false
  dDatO := 0
  dAdrO := 0
  dSelO := 0
  dWeO := false
  wbDataM := 0
  wbLoadComplete := false
  stallWbLoad := false
  signExtendM := false
  sizeM := 0
  byteEnableM := 0
  storeDataM := 0
  wbSelectM := false
  sizeW := 0
  dataW := 0
  signExtendW := false

variable (s : LoadStoreUnit) (i : LoadStoreIn)

/-- The bus cycle in progress is over. -/
def completes : Bool := s.dCycO && (i.dAckI || i.dErrI)

/-- A store leaves the M stage. -/
def startsStore : Bool := !s.dCycO && i.storeQM && !i.stallM

/-- The transfer of a load starts. -/
def startsLoad : Bool :=
  !s.dCycO && !(i.storeQM && !i.stallM) && i.loadQM && s.wbSelectM && !s.wbLoadComplete

/-- A clock cycle. -/
def next : LoadStoreUnit where
  dCycO := if s.dCycO then !s.completes i else s.startsStore i || s.startsLoad i
  dDatO := if s.startsStore i then s.storeDataM else s.dDatO
  dAdrO := if s.startsStore i || s.startsLoad i then i.addressM else s.dAdrO
  dSelO := if s.startsStore i || s.startsLoad i then s.byteEnableM else s.dSelO
  dWeO := if s.startsStore i then true else if s.startsLoad i then false else s.dWeO
  wbDataM := if s.completes i then i.dDatI else s.wbDataM
  -- The flag is cleared when the load leaves the M stage, and a store does not set it.
  wbLoadComplete :=
    if i.stallM = false then false
    else if s.completes i then !s.dWeO
    else s.wbLoadComplete
  stallWbLoad :=
    if i.killM || i.exceptionM then false
    else if i.loadQX && !i.stallX then true
    else if s.startsLoad i then false
    else s.stallWbLoad
  signExtendM := if i.stallM = false then i.signExtendX else s.signExtendM
  sizeM := if i.stallM = false then i.sizeX else s.sizeM
  byteEnableM :=
    if i.stallM = false then byteEnableX i.sizeX (i.addressX.extractLsb' 0 2)
    else s.byteEnableM
  storeDataM :=
    if i.stallM = false then storeDataX i.sizeX i.storeOperandX else s.storeDataM
  wbSelectM := if i.stallM = false then true else s.wbSelectM
  sizeW := s.sizeM
  dataW := s.wbDataM
  signExtendW := s.signExtendM

/-- The transfer that is over, if one is. -/
def transfer : Option Access :=
  if s.completes i then
    some ⟨s.dAdrO, s.dSelO, s.dWeO, if s.dWeO then s.dDatO else i.dDatI⟩
  else none

end LoadStoreUnit

end Soc.Lm32
