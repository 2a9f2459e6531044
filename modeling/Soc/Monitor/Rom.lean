import Soc.Lm32.Encoding
import Soc.Monitor.Program

/-!
# The image of the ROM monitor

`monitor.rom` holds what the assembler makes of `monitor.S`. Its words are the encodings of the
instructions at their addresses, for all that is modelled of them.
-/

namespace Soc.Monitor

open Lm32 (formatI formatR InReach offset)

/-- `monitor.rom`, up to the zeros it is filled with. -/
def rom : List Word :=
  [0x98000000, 0x341f0000, 0xe0000006, 0x34000000, 0x34000000, 0x34000000, 0x34000000, 0x34000000,
    0x98000000, 0x78001000, 0x380007fc, 0x581d0000, 0xf8000004, 0x5b9f0080, 0xf800009b, 0xe000004b,
    0x3400ff70, 0x58010004, 0x58020008, 0x5803000c, 0x58040010, 0x58050014, 0x58060018, 0x5807001c,
    0x58080020, 0x58090024, 0x580a0028, 0x580b002c, 0x580c0030, 0x580d0034, 0x580e0038, 0x580f003c,
    0x58100040, 0x58110044, 0x58120048, 0x5813004c, 0x58140050, 0x58150054, 0x58160058, 0x5817005c,
    0x58180060, 0x58190064, 0x581a0068, 0x581b006c, 0x581c0070, 0x581e0078, 0x581f007c, 0x90e00800,
    0x58010088, 0x91200800, 0x5801008c, 0x23a100ff, 0x00210005, 0x58010084, 0x58000074, 0x281c0074,
    0x98000000, 0x2b810090, 0x5b810074, 0x5b800000, 0xbb80b000, 0xc3a00000, 0x2b810004, 0x2b820008,
    0x2b83000c, 0x2b840010, 0x2b850014, 0x2b860018, 0x2b87001c, 0x2b880020, 0x2b890024, 0x2b8a0028,
    0x2b8b002c, 0x2b8c0030, 0x2b8d0034, 0x2b8e0038, 0x2b8f003c, 0x2b900040, 0x2b910044, 0x2b920048,
    0x2b93004c, 0x2b940050, 0x2b950054, 0x2b960058, 0x2b97005c, 0x2b980060, 0x2b990064, 0x2b9a0068,
    0x2b9b006c, 0xc3a00000, 0xfbffffe4, 0x2b9d0074, 0x2b9e0078, 0x2b9f0088, 0xd0ff0000, 0x2b9f008c,
    0xd13f0000, 0x2b9f0080, 0x2b9c0070, 0xc3e00000, 0x78026000, 0x28412000, 0x5c20fffe, 0x58402004,
    0x28412000, 0x4420ffff, 0x58412004, 0x202100ff, 0xc3a00000, 0x78026000, 0x58402008, 0x2842200c,
    0x5c40fffd, 0x78026000, 0x202100ff, 0x38210100, 0x58412008, 0x78026000, 0x2842200c, 0x4440fffe,
    0xc3a00000, 0x379cfff8, 0x5b9d0004, 0xfbffffe9, 0x33810009, 0xfbffffe7, 0x33810008, 0x43810008,
    0x2b9d0004, 0x379c0008, 0xc3a00000, 0x379cfff8, 0x5b9d0004, 0xfbffffdf, 0x3381000b, 0xfbffffdd,
    0x3381000a, 0xfbffffdb, 0x33810009, 0xfbffffd9, 0x33810008, 0x2b810008, 0x2b9d0004, 0x379c0008,
    0xc3a00000, 0x379cfff8, 0x5b9d0004, 0x0f810008, 0x43810009, 0xfbffffd8, 0x43810008, 0xfbffffd6,
    0x2b9d0004, 0x379c0008, 0xc3a00000, 0x379cfff8, 0x5b9d0004, 0x5b810008, 0x4381000b, 0xfbffffce,
    0x4381000a, 0xfbffffcc, 0x43810009, 0xfbffffca, 0x43810008, 0xfbffffc8, 0x2b9d0004, 0x379c0008,
    0xc3a00000, 0x379cfffc, 0x5b9d0004, 0x78171000, 0x3af7043c, 0x78181000, 0x3b180434, 0x78191000,
    0x3b390408, 0x34010054, 0xfbffffbb, 0xfbffffb1, 0x3402000a, 0x4822fffe, 0x3c210002, 0xb4390800,
    0xc0200000, 0xd0600000, 0x34000000, 0x34000000, 0x34000000, 0xd0800000, 0x34000000, 0x34000000,
    0x34000000, 0x2b9d0004, 0x379c0004, 0xc3a00000, 0x34010002, 0xfbffffa8, 0xe3ffffed, 0xbac00800,
    0xfbffffd3, 0xe3ffffea, 0xfbffff9a, 0x34020000, 0x4822ffe7, 0x08220008, 0xb4581000, 0xc0400000,
    0xfbffffcb, 0xe3ffffe2, 0xfbffff92, 0x3402000a, 0x4822ffdf, 0x082b0008, 0xfbffffad, 0xb5775800,
    0xc1600000, 0xe3ffffda, 0xfbffffa9, 0xb8205800, 0xfbffffa7, 0xb8206000, 0x45800006, 0x41610000,
    0xfbffff8d, 0x356b0001, 0x358cffff, 0xe3fffffb, 0xe3ffffcf, 0xfbffff9e, 0xb8205800, 0xfbffff9c,
    0xb8206000, 0x45800006, 0xfbffff7a, 0x31610000, 0x356b0001, 0x358cffff, 0xe3fffffb, 0xe3ffffc4,
    0xfbffff93, 0xb8205800, 0xfbffff87, 0x0d610000, 0xe3ffffbf, 0xfbffff8e, 0xb8205800, 0xfbffff8c,
    0x59610000, 0xe3ffffba, 0xfbffff89, 0x2c210000, 0xfbffff95, 0xe3ffffb6, 0xfbffff85, 0x28210000,
    0xfbffff9b, 0xe3ffffb2, 0xe3ffffc2, 0xe3ffffc4, 0xe3ffffc6, 0xe3ffffcd, 0xe3ffffd4, 0xe3ffffde,
    0xe3ffffe8, 0xe3ffffec, 0xe3fffff0, 0xe3fffff3, 0xe3ffffad, 0x90c00800, 0xe3ffffc2, 0xd0e10000,
    0xe3ffffa3, 0xd1010000, 0xe3ffffa1, 0xd1210000, 0xe3ffff9f, 0xd2010000, 0xe3ffff9d, 0xd2210000,
    0xe3ffff9b, 0xd2410000, 0xe3ffff99, 0xd2610000, 0xe3ffff97, 0xd3010000, 0xe3ffff95, 0xd3210000,
    0xe3ffff93, 0xd3410000, 0xe3ffff91, 0xd3610000, 0xe3ffff8f]

/-- The word of an instruction at an address. -/
def Op.encode (op : Op) (pc : Word) : Word :=
  match op with
  | .base i => i.encode pc
  | .add x y z => formatR 0b101101 y z x
  | .sli x y n => formatI 0b001111 y x (n.setWidth 16)
  | .lbu x y offset => formatI 0b010000 y x offset
  | .lhu x y offset => formatI 0b001011 y x offset
  | .sb y offset x => formatI 0b001100 y x offset
  | .sh y offset x => formatI 0b000011 y x offset
  | .be x y target => formatI 0b010001 x y (offset 16 pc target)
  | .bne x y target => formatI 0b010111 x y (offset 16 pc target)
  | .bg x y target => formatI 0b010010 x y (offset 16 pc target)

/-- The target of a branch is in reach. -/
def Op.Reaches (op : Op) (pc : Word) : Prop :=
  match op with
  | .base i => i.Reaches pc
  | .be _ _ target | .bne _ _ target | .bg _ _ target => InReach 16 pc target
  | _ => True

instance (op : Op) (pc : Word) : Decidable (op.Reaches pc) := by
  cases op <;> unfold Op.Reaches <;> infer_instance

/-- The instruction reads a CSR. -/
def Op.ReadsCsr (op : Op) : Prop :=
  match op with
  | .base (.rcsr _ _) => True
  | _ => False

instance (op : Op) : Decidable op.ReadsCsr := by
  unfold Op.ReadsCsr
  split <;> infer_instance

/-- The image holds the instructions. -/
theorem rom_encodes : ∀ k < size, ∀ op ∈ instr k,
    rom[k]? = some (op.encode (label k)) ∧ op.Reaches (label k) ∧ ¬ op.ReadsCsr := by
  decide +kernel

end Soc.Monitor
