import Soc.Minimac2.Ctlif

/-!
# The management lines of the PHY

MDC and MDIO, as the control interface of the MAC drives them. A PHY on these lines sees MDIO at the
rising edges of MDC, and drives it or not. `Lines` keeps what was sampled at these edges, and
whether MDIO was ever changed while MDC was high.
-/

namespace Soc.Minimac2

/-- `csr_addr` of the MAC. -/
def minimacAddr : BitVec 4 := 0x8

/-- The address of `CSR_MINIMAC_MDIO` on the CSR bus. -/
def CSR_MINIMAC_MDIO : BitVec 14 := 0x2001

/-- A PHY: what it drives, if it does, after the values of MDIO at the rising edges of MDC so
far. -/
abbrev Phy := List Bool → Option Bool

/-- A rising edge of MDC: the output enable of the MAC, and the value of MDIO. -/
structure MdcEdge where
  oe : Bool
  mdio : Bool
  deriving DecidableEq

/-- The control interface with the lines. The last two fields are bookkeeping: the rising edges of
MDC so far, and whether what the MAC drives to MDIO has changed only while MDC was low. -/
structure Lines where
  ctlif : Ctlif
  edges : List MdcEdge
  steady : Bool

namespace Lines

variable (l : Lines) (phy : Phy)

/-- The values of MDIO at the edges so far. -/
def samples : List Bool := l.edges.map MdcEdge.mdio

/-- What the control interface sees. A PHY that drives nothing leaves the line to the
environment. -/
def inputs (i : CtlifIn) : CtlifIn :=
  { i with phyDrives := (phy l.samples).getD i.phyDrives }

/-- One cycle of `sys_clk`. -/
def cycle (bus : CsrBus) (i : CtlifIn) : Lines :=
  let c := l.ctlif
  let c' := c.clock (l.inputs phy i) minimacAddr bus
  { ctlif := c'
    edges :=
      if c.phyMiiClk = false ∧ c'.phyMiiClk = true then
        l.edges ++ [⟨c.miiDataOe, c.phyMiiData (l.inputs phy i)⟩]
      else l.edges
    steady := l.steady &&
      (c'.miiDataOe == c.miiDataOe && c'.miiDataDo == c.miiDataDo ||
        !c.phyMiiClk && !c'.phyMiiClk) }

/-- MDC, what the MAC drives, and the edges so far, while MDIO has been steady. -/
structure At (mdc oe mdio : Bool) (edges : List MdcEdge) (l : Lines) : Prop where
  mdc : l.ctlif.phyMiiClk = mdc
  oe : l.ctlif.miiDataOe = oe
  mdio : l.ctlif.miiDataDo = mdio
  edges : l.edges = edges
  steady : l.steady = true

/-- The PHY drives a value. -/
structure Driven (value : Bool) (l : Lines) : Prop where
  drives : phy l.samples = some value
  oe : l.ctlif.miiDataOe = false

/-- The PHY drives a value, and the two flip-flops of the synchroniser hold it. -/
structure Sampled (value : Bool) (l : Lines) : Prop extends Driven phy value l where
  di1 : l.ctlif.miiDataDi1 = value
  di : l.ctlif.miiDataDi = value

variable {l : Lines} {phy : Phy} {bus : CsrBus} {i : CtlifIn} {mdc oe mdio value : Bool}
  {edges : List MdcEdge}

/-- The bookkeeping of changes of MDIO. -/
theorem steady_cycle (l : Lines) (phy : Phy) (bus : CsrBus) (i : CtlifIn) :
    let l' := l.cycle phy bus i
    l'.steady = (l.steady &&
      (l'.ctlif.miiDataOe == l.ctlif.miiDataOe && l'.ctlif.miiDataDo == l.ctlif.miiDataDo ||
        !l.ctlif.phyMiiClk && !l'.ctlif.phyMiiClk)) := rfl

/-- A cycle, by what it leaves in the registers of the lines. -/
theorem At.cycle (h : l.At mdc oe mdio edges) (phy : Phy) (bus : CsrBus) (i : CtlifIn)
    {mdc' oe' mdio' : Bool} (hclk : (l.cycle phy bus i).ctlif.phyMiiClk = mdc')
    (hoe : (l.cycle phy bus i).ctlif.miiDataOe = oe')
    (hdo : (l.cycle phy bus i).ctlif.miiDataDo = mdio')
    (hsteady : oe' = oe ∧ mdio' = mdio ∨ mdc = false ∧ mdc' = false) :
    (l.cycle phy bus i).At mdc' oe' mdio'
      (if mdc = false ∧ mdc' = true then
        edges ++ [⟨oe, l.ctlif.phyMiiData (l.inputs phy i)⟩]
      else edges) := by
  obtain ⟨rfl, rfl, rfl, rfl, hbefore⟩ := h
  subst hclk hoe hdo
  refine ⟨rfl, rfl, rfl, rfl, ?_⟩
  rw [steady_cycle, hbefore, Bool.true_and]
  rcases hsteady with ⟨hoe, hdo⟩ | ⟨hmdc, hmdc'⟩
  · rw [hoe, hdo, beq_self_eq_true, beq_self_eq_true]
    rfl
  · rw [hmdc, hmdc', Bool.not_false, Bool.and_true, Bool.or_true]

/-- A cycle without a store to the register changes no line. -/
theorem At.quiet (h : l.At mdc oe mdio edges) (hquiet : bus.writes minimacAddr 1 = false) :
    (l.cycle phy bus i).At mdc oe mdio edges := by
  have hkept : ∀ {x y : Bool}, (if bus.writes minimacAddr 1 then x else y) = y := fun {x y} => by
    rw [hquiet]
    rfl
  have hcycle := h.cycle phy bus i (hkept.trans h.mdc) (hkept.trans h.oe) (hkept.trans h.mdio)
    (.inl ⟨rfl, rfl⟩)
  rwa [if_neg (by simp)] at hcycle

section Stores

variable {word : Word}

/-- What a store leaves in the registers of the lines. -/
theorem cycle_store (l : Lines) (phy : Phy) (word : Word) (i : CtlifIn) :
    let c := (l.cycle phy (.store CSR_MINIMAC_MDIO word) i).ctlif
    c.phyMiiClk = bit word 3 ∧ c.miiDataOe = bit word 2 ∧ c.miiDataDo = bit word 0 := by
  have hwrites : (CsrBus.store CSR_MINIMAC_MDIO word).writes minimacAddr 1 = true := by
    rw [CsrBus.writes_store]
    decide
  have hstored : ∀ {x y : Bool},
      (if (CsrBus.store CSR_MINIMAC_MDIO word).writes minimacAddr 1 then x else y) = x :=
    fun {x y} => by
      rw [hwrites]
      rfl
  exact ⟨hstored, hstored, hstored⟩

/-- While MDC is low, a store that leaves it low may change MDIO. -/
theorem At.low (h : l.At false oe mdio edges) (hclk : bit word 3 = false) :
    (l.cycle phy (.store CSR_MINIMAC_MDIO word) i).At false (bit word 2) (bit word 0) edges := by
  obtain ⟨hmdc, hoe, hdo⟩ := cycle_store l phy word i
  have hcycle := h.cycle phy _ i (hmdc.trans hclk) hoe hdo (.inr ⟨rfl, rfl⟩)
  rwa [if_neg (by simp)] at hcycle

/-- A store that raises MDC gives a rising edge. It shows what the MAC drives, or else what the PHY
drives. -/
theorem At.rise (h : l.At false oe mdio edges) (hclk : bit word 3 = true) (hoe : bit word 2 = oe)
    (hdo : bit word 0 = mdio) : ∃ x, (oe = true → x = mdio) ∧
      (∀ value, oe = false → phy (edges.map MdcEdge.mdio) = some value → x = value) ∧
      (l.cycle phy (.store CSR_MINIMAC_MDIO word) i).At true oe mdio (edges ++ [⟨oe, x⟩]) := by
  obtain ⟨hmdc, hoe', hdo'⟩ := cycle_store l phy word i
  refine ⟨l.ctlif.phyMiiData (l.inputs phy i), fun hdrives => ?_, fun value hfree hphy => ?_, ?_⟩
  · rw [Ctlif.phyMiiData, h.oe, hdrives, if_pos rfl, h.mdio]
  · rw [Ctlif.phyMiiData, h.oe, hfree, if_neg Bool.false_ne_true, inputs, samples, h.edges, hphy]
    rfl
  · have hcycle := h.cycle phy _ i (hmdc.trans hclk) (hoe'.trans hoe) (hdo'.trans hdo)
      (.inl ⟨rfl, rfl⟩)
    rwa [if_pos ⟨rfl, rfl⟩] at hcycle

/-- A store that lowers MDC leaves MDIO alone. -/
theorem At.fall (h : l.At true oe mdio edges) (hclk : bit word 3 = false) (hoe : bit word 2 = oe)
    (hdo : bit word 0 = mdio) :
    (l.cycle phy (.store CSR_MINIMAC_MDIO word) i).At false oe mdio edges := by
  obtain ⟨hmdc, hoe', hdo'⟩ := cycle_store l phy word i
  have hcycle := h.cycle phy _ i (hmdc.trans hclk) (hoe'.trans hoe) (hdo'.trans hdo)
    (.inl ⟨rfl, rfl⟩)
  rwa [if_neg (by simp)] at hcycle

end Stores

/-- What the PHY drives, when the MAC does not. -/
theorem At.driven (h : l.At mdc false mdio edges)
    (hphy : phy (edges.map MdcEdge.mdio) = some value) :
    l.Driven phy value := by
  refine ⟨?_, h.oe⟩
  rw [samples, h.edges]
  exact hphy

/-- A PHY that drives the line is sampled, and goes on driving until the next edge. -/
theorem Driven.cycle (h : l.Driven phy value) (hedges : (l.cycle phy bus i).edges = l.edges)
    (hoe : (l.cycle phy bus i).ctlif.miiDataOe = false) :
    (l.cycle phy bus i).Driven phy value ∧ (l.cycle phy bus i).ctlif.miiDataDi1 = value := by
  refine ⟨⟨?_, hoe⟩, ?_⟩
  · rw [samples, hedges]
    exact h.drives
  · show l.ctlif.phyMiiData (l.inputs phy i) = value
    rw [Ctlif.phyMiiData, h.oe, if_neg Bool.false_ne_true, inputs, h.drives]
    rfl

/-- A sampled value stays. -/
theorem Sampled.cycle (h : l.Sampled phy value) (hedges : (l.cycle phy bus i).edges = l.edges)
    (hoe : (l.cycle phy bus i).ctlif.miiDataOe = false) :
    (l.cycle phy bus i).Sampled phy value := by
  obtain ⟨hdriven, hdi1⟩ := h.toDriven.cycle hedges hoe
  exact ⟨hdriven, hdi1, h.di1⟩

/-- The word that a load samples. -/
theorem csrDo_cycle (l : Lines) (phy : Phy) (bus : CsrBus) (i : CtlifIn) :
    (l.cycle phy bus i).ctlif.csrDo =
      if bus.selects minimacAddr then l.ctlif.readCsr (l.inputs phy i) bus.reg else 0 := rfl

/-- `MINIMAC_MDIO_DI` of a word that is loaded is the value that was sampled. -/
theorem Sampled.load (h : l.Sampled phy value) :
    bit (l.cycle phy (.load CSR_MINIMAC_MDIO) i).ctlif.csrDo 1 = value := by
  have hselects : (CsrBus.load CSR_MINIMAC_MDIO).selects minimacAddr = true := by decide
  have hreg : (CsrBus.load CSR_MINIMAC_MDIO).reg = 1 := by decide
  have hbit : ∀ clk oe di d : Bool, bit ((BitVec.ofBool clk ++ BitVec.ofBool oe ++
      BitVec.ofBool di ++ BitVec.ofBool d).setWidth 32) 1 = di := by decide
  rw [csrDo_cycle, if_pos hselects, hreg, ← h.di]
  exact hbit _ _ _ _

end Lines

end Soc.Minimac2
