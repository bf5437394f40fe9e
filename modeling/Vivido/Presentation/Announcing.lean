import Vivido.Presentation.Target

/-!
What a target announces of its geometry. A terminal target announces each geometry that
moves it, and settles it whether or not a change is still queued. A desktop target takes
every geometry that it is offered for a new one, and a queued change keeps it from settling.
-/

namespace Vivido.Presentation

open Automation (saturatingAdd)

/-- What the crate promises of the desktop's state: an equal descriptor changes nothing, raising the
settled flag settles it, and all else advances the generation. -/
structure DesktopProtocol.Lawful (P : DesktopProtocol) : Prop where
  new : ∀ descriptor, ∃ state, P.new descriptor = some state ∧ P.current state = descriptor
  unchanged : ∀ state, P.offer state (P.current state) = some (state, .unchanged)
  settles : ∀ state, (P.current state).settled = false → ∃ state',
    P.offer state { P.current state with settled := true } =
      some (state', .settled (P.generation state)) ∧
    P.current state' = { P.current state with settled := true } ∧
    P.generation state' = P.generation state
  advances : ∀ state descriptor, descriptor ≠ P.current state →
    descriptor ≠ { P.current state with settled := true } → ∃ state' reason,
    P.offer state descriptor = some (state', .advanced (P.generation state + 1) reason) ∧
    P.current state' = descriptor ∧ P.generation state' = P.generation state + 1

variable {P : DesktopProtocol}

/-- The descriptor of a geometry on the desktop, at some revision. -/
def DesktopTarget.descriptorOf (geometry : DisplayGeometry) (settled : Bool) (revision : ℕ) :
    DesktopDescriptor where
  originX := 0
  originY := 0
  width := geometry.viewportWidth
  height := geometry.viewportHeight
  outputs := [{
    outputId := 1
    originX := 0
    originY := 0
    width := geometry.viewportWidth
    height := geometry.viewportHeight
    scaleNumerator := 1
    scaleDenominator := 1
    rotation := .none
    primary := true }]
  settled
  topologyRevision := revision

namespace Target

/-- The geometry is one that the target can present. -/
def Valid : Target P → DisplayGeometry → Prop
  | .terminal _, geometry => TerminalTarget.valid geometry = true
  | .desktop _, geometry => geometry.viewportWidth ≠ 0 ∧ geometry.viewportHeight ≠ 0

/-- The descriptor is the target's for the geometry. -/
def Describes : Target P → PayloadMap → DisplayGeometry → Bool → Prop
  | .terminal _, descriptor, geometry, settled =>
    descriptor = TerminalTarget.descriptorFor geometry settled
  | .desktop _, descriptor, geometry, settled =>
    ∃ revision, descriptor = P.encode (DesktopTarget.descriptorOf geometry settled revision)

end Target

inductive TargetOp where
  | offer (geometry : DisplayGeometry)
  | take (settledGeneration : Option ℕ)
  deriving DecidableEq, Repr

/-- A target with what it was given and what it has announced: the geometry last accepted, the
descriptor last announced, and whether one is still to be. -/
structure Tracked (P : DesktopProtocol) where
  target : Target P
  geometry : DisplayGeometry
  announced : PayloadMap
  pending : Bool

namespace Tracked

def step (t : Tracked P) : TargetOp → Tracked P
  | .offer geometry =>
    match t.target.offerGeometry geometry with
    | (target, some _) => { t with target, geometry, pending := true }
    | (target, none) => { t with target }
  | .take settledGeneration =>
    match t.target.takeChange settledGeneration with
    | (target, some change) =>
      { t with target, announced := change.descriptor, pending := false }
    | (target, none) => { t with target }

def run (start : Tracked P) (history : List TargetOp) : Tracked P := history.foldl step start

/-- A new target: what it starts with is announced to whoever connects. -/
def opened (target : Target P) (geometry : DisplayGeometry) : Tracked P :=
  ⟨target, geometry, target.descriptor, false⟩

/-- What is asked of an offer. -/
structure OfferFaithful (t : Tracked P) (geometry : DisplayGeometry) : Prop where
  moves : t.target.Valid geometry → geometry ≠ t.geometry →
    (t.target.offerGeometry geometry).2 = some (t.target.generation + 1) ∧
    (t.target.offerGeometry geometry).1.generation = t.target.generation + 1
  stays : ¬ t.target.Valid geometry ∨ geometry = t.geometry →
    (t.target.offerGeometry geometry).2 = none ∧
    (t.target.offerGeometry geometry).1.generation = t.target.generation ∧
    (t.target.offerGeometry geometry).1.descriptor = t.target.descriptor

/-- What is asked of the taking of a change. -/
structure TakeFaithful (t : Tracked P) (settledGeneration : Option ℕ) : Prop where
  generation : (t.target.takeChange settledGeneration).1.generation = t.target.generation
  announces : t.pending = true → ∃ change settled,
    (t.target.takeChange settledGeneration).2 = some change ∧
    change.generation = t.target.generation ∧
    t.target.Describes change.descriptor t.geometry settled
  settles : settledGeneration = some t.target.generation →
    (t.target.takeChange settledGeneration).1.settled = true ∧
    ((∃ change, (t.target.takeChange settledGeneration).2 = some change ∧
        change.generation = t.target.generation ∧
        t.target.Describes change.descriptor t.geometry true) ∨
      (t.target.takeChange settledGeneration).2 = none ∧
        t.target.Describes t.announced t.geometry true)
  rests : settledGeneration ≠ some t.target.generation →
    (t.target.takeChange settledGeneration).1.settled = t.target.settled

/-- The step does what the contract asks, and leaves the descriptor announced unless one is
queued. -/
def Faithful (t : Tracked P) : TargetOp → Prop
  | .offer geometry => t.OfferFaithful geometry ∧
    ((t.step (.offer geometry)).pending = false →
      (t.step (.offer geometry)).target.descriptor = (t.step (.offer geometry)).announced)
  | .take settledGeneration => t.TakeFaithful settledGeneration ∧
    ((t.step (.take settledGeneration)).pending = false →
      (t.step (.take settledGeneration)).target.descriptor =
        (t.step (.take settledGeneration)).announced)

/-- A new geometry finds a generation for it on a terminal; on a desktop it is the one offered last
if and only if its descriptor at the next revision is the current one; and a desktop is not settled
while a change is queued. -/
def Meets (t : Tracked P) : TargetOp → Prop
  | .offer geometry =>
    match t.target with
    | .terminal target => TerminalTarget.valid geometry = true → geometry ≠ t.geometry →
      target.current.generation + 1 < 2 ^ 64
    | .desktop target => geometry.viewportWidth ≠ 0 → geometry.viewportHeight ≠ 0 →
      (geometry = t.geometry ↔ DesktopTarget.descriptorOf geometry false
        (saturatingAdd (P.current target.state).topologyRevision 1) = P.current target.state)
  | .take settledGeneration =>
    match t.target with
    | .terminal _ => True
    | .desktop target =>
      settledGeneration = some (P.generation target.state) → target.queued = none

/-- How the target stands to what it was given and has announced. -/
inductive Sound (t : Tracked P) : Prop where
  | terminal (target : TerminalTarget) (htarget : t.target = .terminal target)
      (hgeometry : target.current.geometry = t.geometry)
      (hqueued : target.queued = if t.pending then some target.current else none)
      (hunsettled : t.pending = true → target.current.settled = false)
      (hannounced : t.pending = false → t.announced = target.descriptor)
  | desktop (target : DesktopTarget P) (settled : Bool) (revision : ℕ)
      (htarget : t.target = .desktop target)
      (hcurrent : P.current target.state = DesktopTarget.descriptorOf t.geometry settled revision)
      (hpending : t.pending = true → settled = false ∧ ∃ reason,
        target.queued = some ⟨target.descriptor, P.generation target.state, reason⟩)
      (hannounced : t.pending = false → target.queued = none ∧ t.announced = target.descriptor)

variable {t : Tracked P}

/-! ### Steps -/

variable {geometry : DisplayGeometry} {settledGeneration : Option ℕ}

theorem step_offer_some {target : Target P} {generation : ℕ}
    (h : t.target.offerGeometry geometry = (target, some generation)) :
    t.step (.offer geometry) = { t with target, geometry, pending := true } := by
  rw [step, h]

theorem step_offer_none {target : Target P} (h : t.target.offerGeometry geometry = (target, none)) :
    t.step (.offer geometry) = { t with target } := by
  rw [step, h]

theorem step_take_some {target : Target P} {change : TargetChange}
    (h : t.target.takeChange settledGeneration = (target, some change)) :
    t.step (.take settledGeneration) =
      { t with target, announced := change.descriptor, pending := false } := by
  rw [step, h]

theorem step_take_none {target : Target P}
    (h : t.target.takeChange settledGeneration = (target, none)) :
    t.step (.take settledGeneration) = { t with target } := by
  rw [step, h]

/-- What is announced is the target's descriptor unless a change is queued. -/
theorem Sound.agrees (h : t.Sound) (hidle : t.pending = false) :
    t.target.descriptor = t.announced := by
  cases h with
  | terminal _ htarget _ _ _ hannounced =>
    rw [htarget, hannounced hidle]
    rfl
  | desktop _ _ _ htarget _ _ hannounced =>
    rw [htarget, (hannounced hidle).2]
    rfl

theorem refused_offer (h : t.Sound) (hoffer : t.target.offerGeometry geometry = (t.target, none)) :
    (t.step (.offer geometry)).Sound ∧
      (t.Faithful (.offer geometry) ↔ ¬ t.target.Valid geometry ∨ geometry = t.geometry) := by
  have hstep : t.step (.offer geometry) = t := step_offer_none hoffer
  refine ⟨hstep.symm ▸ h, ?_⟩
  rw [Faithful, hstep]
  constructor
  · rintro ⟨hfaithful, -⟩
    by_contra hmoves
    rw [not_or, not_not] at hmoves
    have hmoved := (hfaithful.moves hmoves.1 hmoves.2).1
    rw [hoffer] at hmoved
    cases hmoved
  · intro hstays
    refine ⟨⟨fun hvalid hnew => ?_, fun _ => ?_⟩, h.agrees⟩
    · exact absurd hstays (not_or.mpr ⟨not_not.mpr hvalid, hnew⟩)
    · rw [hoffer]
      exact ⟨rfl, rfl, rfl⟩

theorem accepted_offer {target : Target P}
    (hoffer : t.target.offerGeometry geometry = (target, some (t.target.generation + 1)))
    (hgeneration : target.generation = t.target.generation + 1) :
    t.Faithful (.offer geometry) ↔ t.target.Valid geometry ∧ geometry ≠ t.geometry := by
  have hstep := step_offer_some hoffer
  rw [Faithful, hstep]
  constructor
  · rintro ⟨hfaithful, -⟩
    by_contra hstays
    rw [not_and_or, not_not] at hstays
    have hstayed := (hfaithful.stays hstays).1
    rw [hoffer] at hstayed
    cases hstayed
  · rintro ⟨hvalid, hnew⟩
    refine ⟨⟨fun _ _ => ?_, fun hstays => ?_⟩, nofun⟩
    · rw [hoffer]
      exact ⟨rfl, hgeneration⟩
    · rcases hstays with hinvalid | hsame
      · exact absurd hvalid hinvalid
      · exact absurd hsame hnew

/-! ### The terminal -/

section Terminal

variable {target : TerminalTarget}

theorem Sound.of_terminal (h : t.Sound) (htarget : t.target = .terminal target) :
    target.current.geometry = t.geometry ∧
      (target.queued = if t.pending then some target.current else none) ∧
      (t.pending = true → target.current.settled = false) := by
  cases h with
  | terminal _ htarget' hgeometry hqueued hunsettled =>
    cases htarget.symm.trans htarget'
    exact ⟨hgeometry, hqueued, hunsettled⟩
  | desktop _ _ _ htarget' => cases htarget.symm.trans htarget'

theorem terminal_offer (h : t.Sound) (htarget : t.target = .terminal target)
    (geometry : DisplayGeometry) : (t.step (.offer geometry)).Sound ∧
      (t.Faithful (.offer geometry) ↔ t.Meets (.offer geometry)) := by
  have hmeets : t.Meets (.offer geometry) ↔ (TerminalTarget.valid geometry = true →
      geometry ≠ t.geometry → target.current.generation + 1 < 2 ^ 64) := by
    rw [Meets, htarget]
  obtain ⟨hgeometry, _, _⟩ := h.of_terminal htarget
  by_cases hmoves : TerminalTarget.valid geometry = true ∧ geometry ≠ t.geometry ∧
      target.current.generation + 1 < 2 ^ 64
  · obtain ⟨hvalid, hnew, hnumber⟩ := hmoves
    have hoffer : t.target.offerGeometry geometry =
        (.terminal ⟨⟨geometry, target.current.generation + 1, false⟩,
          some ⟨geometry, target.current.generation + 1, false⟩⟩,
          some (t.target.generation + 1)) := by
      rw [htarget, Target.offerGeometry, TerminalTarget.offerGeometry, hvalid,
        if_neg (by decide), if_neg (fun hsame => hnew (hsame.symm.trans hgeometry)), if_pos hnumber]
      rfl
    constructor
    · rw [step_offer_some hoffer]
      exact .terminal _ rfl rfl rfl (fun _ => rfl) nofun
    · rw [accepted_offer hoffer (by rw [htarget]; rfl), hmeets, htarget]
      exact iff_of_true ⟨hvalid, hnew⟩ fun _ _ => hnumber
  · have hoffer : t.target.offerGeometry geometry = (t.target, none) := by
      rw [htarget, Target.offerGeometry, TerminalTarget.offerGeometry]
      by_cases hvalid : TerminalTarget.valid geometry = true
      · by_cases hsame : target.current.geometry = geometry
        · simp [hvalid, hsame]
        · have hlast : ¬ target.current.generation + 1 < 2 ^ 64 := fun hnumber =>
            hmoves ⟨hvalid, fun heq => hsame (hgeometry.trans heq.symm), hnumber⟩
          simp only [hvalid, hsame, hlast, Bool.not_true, if_false, Bool.false_eq_true]
      · simp [hvalid]
    obtain ⟨hsound, hfaithful⟩ := refused_offer h hoffer
    refine ⟨hsound, ?_⟩
    rw [hfaithful, hmeets, htarget]
    constructor
    · rintro (hinvalid | hsame) hvalid hnew
      · exact absurd hvalid hinvalid
      · exact absurd hsame hnew
    · intro hnumber
      by_contra hleft
      rw [not_or, not_not] at hleft
      exact hmoves ⟨hleft.1, hleft.2, hnumber hleft.1 hleft.2⟩

variable {settledGeneration : Option ℕ}

theorem takeChange_settling (hqueued : target.queued = none ∨ target.queued = some target.current)
    (hsettle : settledGeneration = some target.current.generation) :
    target.takeChange settledGeneration = (⟨{ target.current with settled := true }, none⟩,
        some ⟨TerminalTarget.descriptorFor target.current.geometry true,
          target.current.generation, 0x1f⟩) := by
  rw [TerminalTarget.takeChange]
  rcases hqueued with hqueued | hqueued <;> simp [hqueued, hsettle]

theorem takeChange_queued (hqueued : target.queued = some target.current)
    (hsettle : settledGeneration ≠ some target.current.generation) :
    target.takeChange settledGeneration = (⟨target.current, none⟩,
        some ⟨TerminalTarget.descriptorFor target.current.geometry false,
          target.current.generation, 0x1f⟩) := by
  rw [TerminalTarget.takeChange]
  simp [hqueued, hsettle]

theorem takeChange_idle (hqueued : target.queued = none)
    (hsettle : settledGeneration ≠ some target.current.generation) :
    target.takeChange settledGeneration = (target, none) := by
  rw [TerminalTarget.takeChange]
  simp only [hqueued, hsettle, if_false]
  rw [← hqueued]

theorem terminal_take (h : t.Sound) (htarget : t.target = .terminal target)
    (settledGeneration : Option ℕ) :
    (t.step (.take settledGeneration)).Sound ∧ t.Faithful (.take settledGeneration) := by
  obtain ⟨hgeometry, hqueued, hunsettled⟩ := h.of_terminal htarget
  have hnumber : t.target.generation = target.current.generation := by rw [htarget]; rfl
  by_cases hsettle : settledGeneration = some target.current.generation
  · have htake : t.target.takeChange settledGeneration =
        (.terminal ⟨{ target.current with settled := true }, none⟩,
          some ⟨TerminalTarget.descriptorFor t.geometry true, target.current.generation,
            0x1f⟩) := by
      rw [htarget, Target.takeChange, takeChange_settling ?_ hsettle, hgeometry]
      cases hpending : t.pending with
      | true => exact Or.inr (by simpa [hpending] using hqueued)
      | false => exact Or.inl (by simpa [hpending] using hqueued)
    have hsound : (t.step (.take settledGeneration)).Sound := by
      rw [step_take_some htake]
      refine .terminal _ rfl hgeometry rfl nofun fun _ => ?_
      rw [TerminalTarget.descriptor, hgeometry]
    refine ⟨hsound, ⟨?_, fun _ => ?_, fun _ => ?_, fun hother => ?_⟩, hsound.agrees⟩
    · rw [htake, hnumber]
      rfl
    · refine ⟨_, true, by rw [htake], hnumber.symm, ?_⟩
      rw [htarget]
      rfl
    · rw [htake]
      refine ⟨rfl, Or.inl ⟨_, rfl, hnumber.symm, ?_⟩⟩
      rw [htarget]
      rfl
    · exact absurd (hsettle.trans (congrArg some hnumber.symm)) hother
  · cases hpending : t.pending with
    | true =>
      have hqueue : target.queued = some target.current := by simpa [hpending] using hqueued
      have htake : t.target.takeChange settledGeneration =
          (.terminal ⟨target.current, none⟩,
            some ⟨TerminalTarget.descriptorFor t.geometry false, target.current.generation,
              0x1f⟩) := by
        rw [htarget, Target.takeChange, takeChange_queued hqueue hsettle, hgeometry]
      have hsound : (t.step (.take settledGeneration)).Sound := by
        rw [step_take_some htake]
        refine .terminal _ rfl hgeometry rfl nofun fun _ => ?_
        rw [TerminalTarget.descriptor, hgeometry, hunsettled hpending]
      refine ⟨hsound, ⟨?_, fun _ => ?_, fun hsame => ?_, fun _ => ?_⟩, hsound.agrees⟩
      · rw [htake, hnumber]
        rfl
      · refine ⟨_, false, by rw [htake], hnumber.symm, ?_⟩
        rw [htarget]
        rfl
      · exact absurd (hsame.trans (congrArg some hnumber)) hsettle
      · rw [htake, htarget]
        rfl
    | false =>
      have hqueue : target.queued = none := by simpa [hpending] using hqueued
      have htake : t.target.takeChange settledGeneration = (t.target, none) := by
        rw [htarget, Target.takeChange, takeChange_idle hqueue hsettle]
      have hsame : t.step (.take settledGeneration) = t := step_take_none htake
      rw [Faithful, hsame]
      refine ⟨h, ⟨?_, fun hon => ?_, fun hother => ?_, fun _ => ?_⟩, h.agrees⟩
      · rw [htake]
      · rw [hpending] at hon
        cases hon
      · exact absurd (hother.trans (congrArg some hnumber)) hsettle
      · rw [htake]

end Terminal

/-! ### The desktop -/

section Desktop

variable {target : DesktopTarget P} {settled : Bool} {revision : ℕ}

theorem describe_eq (geometry : DisplayGeometry) (settled : Bool) (revision : ℕ)
    (hwidth : geometry.viewportWidth ≠ 0) (hheight : geometry.viewportHeight ≠ 0) :
    DesktopTarget.describe geometry settled revision =
      .ok (DesktopTarget.descriptorOf geometry settled revision) := by
  rw [DesktopTarget.describe, if_neg (not_or.mpr ⟨hwidth, hheight⟩)]
  rfl

theorem desktop_offer (hP : P.Lawful) (h : t.Sound) (htarget : t.target = .desktop target)
    (geometry : DisplayGeometry) : (t.step (.offer geometry)).Sound ∧
      (t.Faithful (.offer geometry) ↔ t.Meets (.offer geometry)) := by
  obtain ⟨next, hnext⟩ : ∃ next, next = DesktopTarget.descriptorOf geometry false
    (saturatingAdd (P.current target.state).topologyRevision 1) := ⟨_, rfl⟩
  have hmeets : t.Meets (.offer geometry) ↔ (geometry.viewportWidth ≠ 0 →
      geometry.viewportHeight ≠ 0 → (geometry = t.geometry ↔ next = P.current target.state)) := by
    rw [Meets, htarget, hnext]
  have hvalid : t.target.Valid geometry ↔
      geometry.viewportWidth ≠ 0 ∧ geometry.viewportHeight ≠ 0 := by
    rw [htarget]
    rfl
  by_cases hmoves : (geometry.viewportWidth ≠ 0 ∧ geometry.viewportHeight ≠ 0) ∧
      next ≠ P.current target.state
  · obtain ⟨state, reason, hadvanced, hcurrent, hgeneration⟩ := hP.advances target.state next
      hmoves.2 (fun hsettled => by
        have hflag := congrArg DesktopDescriptor.settled hsettled
        rw [hnext] at hflag
        cases hflag)
    have hoffer : t.target.offerGeometry geometry =
        (.desktop ⟨state, some ⟨P.encode (P.current state), P.generation target.state + 1, reason⟩⟩,
          some (t.target.generation + 1)) := by
      rw [htarget, Target.offerGeometry, DesktopTarget.offerGeometry,
        describe_eq geometry false _ hmoves.1.1 hmoves.1.2, ← hnext]
      dsimp only
      rw [hadvanced]
      rfl
    constructor
    · rw [step_offer_some hoffer]
      refine .desktop _ false _ rfl (hcurrent.trans hnext) (fun _ => ⟨rfl, reason, ?_⟩)
        nofun
      rw [← hgeneration]
      rfl
    · rw [accepted_offer hoffer (by rw [htarget]; exact hgeneration), hmeets, hvalid]
      constructor
      · rintro ⟨-, hnew⟩ _ _
        exact iff_of_false hnew hmoves.2
      · intro hiff
        exact ⟨hmoves.1, fun hsame => hmoves.2 ((hiff hmoves.1.1 hmoves.1.2).mp hsame)⟩
  · have hoffer : t.target.offerGeometry geometry = (t.target, none) := by
      rw [htarget, Target.offerGeometry, DesktopTarget.offerGeometry]
      by_cases hpositive : geometry.viewportWidth ≠ 0 ∧ geometry.viewportHeight ≠ 0
      · have hsame : next = P.current target.state := not_not.mp fun hne => hmoves ⟨hpositive, hne⟩
        rw [describe_eq geometry false _ hpositive.1 hpositive.2, ← hnext, hsame]
        dsimp only
        rw [hP.unchanged]
      · rw [DesktopTarget.describe, if_pos (by
          rw [not_and_or, not_not, not_not] at hpositive
          exact hpositive)]
    obtain ⟨hsound, hfaithful⟩ := refused_offer h hoffer
    refine ⟨hsound, ?_⟩
    rw [hfaithful, hmeets, hvalid]
    constructor
    · rintro (hinvalid | hsame) hwidth hheight
      · exact absurd ⟨hwidth, hheight⟩ hinvalid
      · exact iff_of_true hsame (not_not.mp fun hne => hmoves ⟨⟨hwidth, hheight⟩, hne⟩)
    · intro hiff
      by_contra hleft
      rw [not_or, not_not] at hleft
      exact hmoves ⟨hleft.1, fun hsame => hleft.2 ((hiff hleft.1.1 hleft.1.2).mpr hsame)⟩

/-- A desktop that is told what it is told already. -/
theorem idle_take {settledGeneration : Option ℕ} (h : t.Sound) (hpending : t.pending = false)
    (htake : t.target.takeChange settledGeneration = (t.target, none))
    (hsettled : settledGeneration = some t.target.generation →
      t.target.settled = true ∧ t.target.Describes t.announced t.geometry true) :
    (t.step (.take settledGeneration)).Sound ∧ t.Faithful (.take settledGeneration) := by
  have hsame : t.step (.take settledGeneration) = t := step_take_none htake
  rw [Faithful, hsame]
  refine ⟨h, ⟨?_, fun hon => ?_, fun hsettle => ?_, fun _ => ?_⟩, h.agrees⟩
  · rw [htake]
  · rw [hpending] at hon
    cases hon
  · rw [htake]
    exact ⟨(hsettled hsettle).1, Or.inr ⟨rfl, (hsettled hsettle).2⟩⟩
  · rw [htake]

/-- A queued change is announced as it was queued, and nothing is settled. -/
theorem desktop_take_queued (htarget : t.target = .desktop target)
    (hcurrent : P.current target.state = DesktopTarget.descriptorOf t.geometry false revision)
    {reason : ℕ}
    (hqueued : target.queued = some ⟨target.descriptor, P.generation target.state, reason⟩)
    (settledGeneration : Option ℕ) : (t.step (.take settledGeneration)).Sound ∧
      (t.Faithful (.take settledGeneration) ↔ t.Meets (.take settledGeneration)) := by
  have htake : t.target.takeChange settledGeneration =
      (.desktop ⟨target.state, none⟩,
        some ⟨target.descriptor, P.generation target.state, reason⟩) := by
    rw [htarget, Target.takeChange, DesktopTarget.takeChange, hqueued]
  have hsound : (t.step (.take settledGeneration)).Sound := by
    rw [step_take_some htake]
    exact .desktop _ false revision rfl hcurrent nofun fun _ => ⟨rfl, rfl⟩
  have hnumber : t.target.generation = P.generation target.state := by rw [htarget]; rfl
  have hmeets : t.Meets (.take settledGeneration) ↔
      settledGeneration ≠ some t.target.generation := by
    rw [Meets, hnumber, htarget]
    dsimp only
    rw [hqueued]
    constructor
    · intro hnone hsame
      cases hnone hsame
    · intro hother hsame
      exact absurd hsame hother
  refine ⟨hsound, ?_⟩
  rw [hmeets]
  constructor
  · rintro ⟨hfaithful, -⟩ hsettle
    have hflag := (hfaithful.settles hsettle).1
    rw [htake] at hflag
    change (P.current target.state).settled = true at hflag
    rw [hcurrent] at hflag
    cases hflag
  · intro hother
    refine ⟨⟨?_, fun _ => ?_, fun hsettle => absurd hsettle hother, fun _ => ?_⟩, hsound.agrees⟩
    · rw [htake, hnumber]
      rfl
    · refine ⟨_, false, by rw [htake], hnumber.symm, ?_⟩
      rw [htarget]
      exact ⟨revision, congrArg P.encode hcurrent⟩
    · rw [htake, htarget]
      rfl

theorem desktop_settle (hP : P.Lawful) (htarget : t.target = .desktop target)
    (hcurrent : P.current target.state = DesktopTarget.descriptorOf t.geometry false revision)
    (hpending : t.pending = false) (hqueued : target.queued = none) :
    (t.step (.take (some t.target.generation))).Sound ∧
      t.Faithful (.take (some t.target.generation)) := by
  have hnumber : t.target.generation = P.generation target.state := by rw [htarget]; rfl
  have hunsettled : (P.current target.state).settled = false := by rw [hcurrent]; rfl
  obtain ⟨state, hsettled, hafter, hgeneration⟩ := hP.settles target.state hunsettled
  have hlater : P.current state = DesktopTarget.descriptorOf t.geometry true revision := by
    rw [hafter, hcurrent]
    rfl
  have htake : t.target.takeChange (some t.target.generation) =
      (.desktop ⟨state, none⟩,
        some ⟨P.encode (P.current state), P.generation target.state, P.presentationWindow⟩) := by
    rw [hnumber, htarget, Target.takeChange, DesktopTarget.takeChange, hqueued]
    simp only [ne_eq, not_true, if_false, hunsettled, hsettled, Bool.false_eq_true]
  have hsound : (t.step (.take (some t.target.generation))).Sound := by
    rw [step_take_some htake]
    exact .desktop _ true revision rfl hlater nofun fun _ => ⟨rfl, rfl⟩
  refine ⟨hsound, ⟨?_, fun hon => ?_, fun _ => ?_, fun hother => absurd rfl hother⟩, hsound.agrees⟩
  · rw [htake, hnumber]
    exact hgeneration
  · rw [hpending] at hon
    cases hon
  · rw [htake]
    refine ⟨congrArg DesktopDescriptor.settled hlater, Or.inl ⟨_, rfl, hnumber.symm, ?_⟩⟩
    rw [htarget]
    exact ⟨revision, congrArg P.encode hlater⟩

theorem desktop_take (hP : P.Lawful) (h : t.Sound) (htarget : t.target = .desktop target)
    (settledGeneration : Option ℕ) : (t.step (.take settledGeneration)).Sound ∧
      (t.Faithful (.take settledGeneration) ↔ t.Meets (.take settledGeneration)) := by
  obtain ⟨settled, revision, hcurrent, hqueue, hannounced⟩ : ∃ settled revision,
      P.current target.state = DesktopTarget.descriptorOf t.geometry settled revision ∧
      (t.pending = true → settled = false ∧ ∃ reason,
        target.queued = some ⟨target.descriptor, P.generation target.state, reason⟩) ∧
      (t.pending = false → target.queued = none ∧ t.announced = target.descriptor) := by
    cases h with
    | terminal _ htarget' => cases htarget.symm.trans htarget'
    | desktop _ settled revision htarget' hcurrent hqueue hannounced =>
      cases htarget.symm.trans htarget'
      exact ⟨settled, revision, hcurrent, hqueue, hannounced⟩
  cases hpending : t.pending with
  | true =>
    obtain ⟨rfl, _, hqueued⟩ := hqueue hpending
    exact desktop_take_queued htarget hcurrent hqueued settledGeneration
  | false =>
    obtain ⟨hqueued, hlast⟩ := hannounced hpending
    have hmeets : t.Meets (.take settledGeneration) := by
      rw [Meets, htarget]
      exact fun _ => hqueued
    have hnumber : t.target.generation = P.generation target.state := by rw [htarget]; rfl
    suffices hboth : (t.step (.take settledGeneration)).Sound ∧
        t.Faithful (.take settledGeneration) from
      ⟨hboth.1, iff_of_true hboth.2 hmeets⟩
    by_cases hsettle : settledGeneration = some t.target.generation
    · cases settled with
      | false =>
        rw [hsettle]
        exact desktop_settle hP htarget hcurrent hpending hqueued
      | true =>
        refine idle_take h hpending ?_ fun _ => ?_
        · rw [htarget, Target.takeChange, DesktopTarget.takeChange, hqueued, hsettle, hnumber,
            hcurrent]
          simp [DesktopTarget.descriptorOf]
        · rw [htarget, hlast]
          exact ⟨congrArg DesktopDescriptor.settled hcurrent, revision, congrArg P.encode hcurrent⟩
    · refine idle_take h hpending ?_ fun hsame => absurd hsame hsettle
      rw [hnumber] at hsettle
      rw [htarget, Target.takeChange, DesktopTarget.takeChange, hqueued]
      simp only [ne_eq, hsettle, not_false_eq_true, if_true]

end Desktop

/-! ### Runs -/

/-- A new target for a geometry, of either kind. -/
inductive Opened (P : DesktopProtocol) (geometry : DisplayGeometry) : Target P → Prop where
  | terminal (target : TerminalTarget) (h : TerminalTarget.new geometry = .ok target) :
      Opened P geometry (.terminal target)
  | desktop (target : DesktopTarget P) (h : DesktopTarget.new P geometry = .ok target) :
      Opened P geometry (.desktop target)

theorem sound_opened (hP : P.Lawful) {geometry : DisplayGeometry} {target : Target P}
    (h : Opened P geometry target) : (opened target geometry).Sound := by
  cases h with
  | terminal _ h =>
    rw [TerminalTarget.new] at h
    split at h
    · cases h
      exact .terminal _ rfl rfl rfl nofun fun _ => rfl
    · cases h
  | desktop target h =>
    rw [DesktopTarget.new, DesktopTarget.describe] at h
    split at h
    · cases h
    next descriptor hdescribe =>
    split at hdescribe
    · cases hdescribe
    cases hdescribe
    obtain ⟨_, hnew, hcurrent⟩ := hP.new (DesktopTarget.descriptorOf geometry true 1)
    rw [DesktopTarget.descriptorOf] at hnew
    rw [hnew] at h
    cases h
    exact .desktop _ true 1 rfl hcurrent nofun fun _ => ⟨rfl, rfl⟩

theorem Sound.step (hP : P.Lawful) (h : t.Sound) (op : TargetOp) :
    (t.step op).Sound ∧ (t.Faithful op ↔ t.Meets op) := by
  cases htarget : t.target with
  | terminal =>
    cases op with
    | offer geometry => exact terminal_offer h htarget geometry
    | take settledGeneration =>
      obtain ⟨hsound, hfaithful⟩ := terminal_take h htarget settledGeneration
      refine ⟨hsound, iff_of_true hfaithful ?_⟩
      rw [Meets, htarget]
      trivial
  | desktop =>
    cases op with
    | offer geometry => exact desktop_offer hP h htarget geometry
    | take settledGeneration => exact desktop_take hP h htarget settledGeneration

theorem sound_run (hP : P.Lawful) {start : Tracked P} (h : start.Sound) (history : List TargetOp) :
    (run start history).Sound := by
  induction history using List.reverseRecOn with
  | nil => exact h
  | append_singleton _ op ih =>
    rw [run, List.foldl_concat]
    exact (ih.step hP op).1

/-- A new target announces all that is done to it faithfully if and only if each step meets the
conditions: a geometry finds a generation, a desktop is not offered what it has, and it is not
settled over a queued change. -/
theorem target_faithful_iff (hP : P.Lawful) {geometry : DisplayGeometry} {target : Target P}
    (h : Opened P geometry target) (history : List TargetOp) :
    Throughout (run (opened target geometry)) Faithful history ↔
      Throughout (run (opened target geometry)) Meets history := by
  have hstep : ∀ earlier op, (run (opened target geometry) earlier).Faithful op ↔
      (run (opened target geometry) earlier).Meets op := fun earlier op =>
    ((sound_run hP (sound_opened hP h) earlier).step hP op).2
  constructor
  · intro hall earlier op later heq
    exact (hstep earlier op).mp (hall earlier op later heq)
  · intro hall earlier op later heq
    exact (hstep earlier op).mpr (hall earlier op later heq)

/-- A state that holds the descriptor and its generation. -/
def plain : DesktopProtocol where
  State := DesktopDescriptor × ℕ
  new descriptor := some (descriptor, 1)
  current := Prod.fst
  generation := Prod.snd
  offer state descriptor :=
    if descriptor = state.1 then some (state, .unchanged)
    else if descriptor = { state.1 with settled := true } then
      some ((descriptor, state.2), .settled state.2)
    else some ((descriptor, state.2 + 1), .advanced (state.2 + 1) 0x1f)
  encode descriptor := [(0, .unsigned descriptor.width), (1, .unsigned descriptor.height),
    (2, .bool descriptor.settled), (3, .unsigned descriptor.topologyRevision)]
  presentationWindow := 1

theorem plain_lawful : plain.Lawful where
  new descriptor := ⟨(descriptor, 1), rfl, rfl⟩
  unchanged state := if_pos rfl
  settles state h := by
    have hne : { state.1 with settled := true } ≠ state.1 := by
      intro heq
      have hflag := congrArg DesktopDescriptor.settled heq
      rw [show state.1.settled = false from h] at hflag
      cases hflag
    exact ⟨({ state.1 with settled := true }, state.2), (if_neg hne).trans (if_pos rfl), rfl, rfl⟩
  advances state descriptor hne hnot :=
    ⟨(descriptor, state.2 + 1), 0x1f, (if_neg hne).trans (if_neg hnot), rfl, rfl⟩

/-- A window of 800 by 600 pixels. -/
def window : DisplayGeometry := ⟨800, 600, 80, 24, 10, 25⟩

def desktop : Target plain := .desktop ⟨(DesktopTarget.descriptorOf window true 1, 1), none⟩

theorem desktop_opened : Opened plain window desktop := .desktop _ rfl

theorem target_faithful_resized : Throughout (run (opened desktop window)) Faithful
      [.offer { window with viewportWidth := 810 }, .take none, .take (some 2)] ↔
    Throughout (run (opened desktop window)) Meets
      [.offer { window with viewportWidth := 810 }, .take none, .take (some 2)] :=
  target_faithful_iff plain_lawful desktop_opened _

/-- A desktop that is offered the geometry it has takes it for a new one, and one that is settled
over a queued change announces that change as it was. -/
theorem desktop_unfaithful : (run (opened desktop window) [.offer window]).target.generation = 2 ∧
    (run (opened desktop window)
      [.offer { window with viewportWidth := 810 }, .take (some 2)]).target.settled = false ∧
    ¬ Throughout (run (opened desktop window)) Faithful [.offer window] ∧
    ¬ Throughout (run (opened desktop window)) Faithful
      [.offer { window with viewportWidth := 810 }, .take (some 2)] := by
  refine ⟨by decide, by decide, fun h => ?_, fun h => ?_⟩
  · have hstays := (h [] (.offer window) [] rfl).1.stays (Or.inr rfl)
    exact absurd hstays.1 (by decide)
  · have hsettles :=
      (h [.offer { window with viewportWidth := 810 }] (.take (some 2)) [] rfl).1.settles
      (by decide)
    exact absurd hsettles.1 (by decide)

end Tracked

end Vivido.Presentation
