import Vivido.Rendezvous.Files

/-!
What a process unlinks it has looked at before. Where the path still is what it
was then, it is not a living process's, and a process that has registered stays
the one that the name stands for.
-/

namespace Vivido.Rendezvous

def Act.process : Act → ℕ
  | .start process => process
  | .look process => process
  | .step process => process
  | .close process => process
  | .die process => process

namespace World

variable {w : World} {p q : ℕ} {phase : Phase}

/-- No file is unlinked that another living process has made. -/
def Spares (w : World) (act : Act) : Prop :=
  ∀ q, w.isAlive q = true → act.process ≠ q →
    (w.socket = some q → (w.step act).socket ≠ none) ∧
      (w.registry = some q → (w.step act).registry ≠ none)

/-- A living process that serves the session has its socket and its registry in place. -/
def Resolves (w : World) : Prop :=
  ∀ q, w.processes.lookup q = some ⟨true, .serving⟩ → w.socket = some q ∧ w.registry = some q

/-- What is to be unlinked is gone, or is the instance's that is removed. -/
def FindsInstance (w : World) (removal : Removal) : Prop :=
  match removal.stage with
  | .socket => w.socket = none ∨ w.socket = some removal.expected
  | .registry => w.registry = none ∨ w.registry = some removal.expected
  | _ => True

/-- What is to be unlinked is gone, or is what the process has looked at. -/
def Finds (w : World) : Phase → Prop
  | .clearing refused => w.socket = none ∨ w.socket = refused
  | .replacing removal => w.FindsInstance removal
  | .closing removal => w.FindsInstance removal
  | .reaping removal => w.FindsInstance removal
  | _ => True

/-- A process that takes a step finds what it unlinks as it was. -/
def Undisturbed (w : World) : Act → Prop
  | .step p => ∀ process ∈ w.processes.lookup p, process.alive = true → w.Finds process.phase
  | _ => True

instance decidableFindsInstance (w : World) : DecidablePred w.FindsInstance
  | ⟨_, .socket⟩ => inferInstanceAs (Decidable (_ ∨ _))
  | ⟨_, .registry⟩ => inferInstanceAs (Decidable (_ ∨ _))
  | ⟨_, .first⟩ => .isTrue trivial
  | ⟨_, .second⟩ => .isTrue trivial
  | ⟨_, .third⟩ => .isTrue trivial

instance decidableFinds (w : World) : DecidablePred w.Finds
  | .clearing _ => inferInstanceAs (Decidable (_ ∨ _))
  | .replacing removal => inferInstanceAs (Decidable (w.FindsInstance removal))
  | .closing removal => inferInstanceAs (Decidable (w.FindsInstance removal))
  | .reaping removal => inferInstanceAs (Decidable (w.FindsInstance removal))
  | .reading | .judging _ | .probing | .connecting | .binding | .registering | .serving
  | .looking | .weighing _ | .done | .refused _ => .isTrue trivial

instance decidableUndisturbed (w : World) : DecidablePred w.Undisturbed
  | .step p => inferInstanceAs (Decidable (∀ process ∈ w.processes.lookup p, _ → _))
  | .start _ | .look _ | .close _ | .die _ => .isTrue trivial

/-! ### What the phases know -/

def Started (w : World) (process : ℕ) : Prop := (w.processes.lookup process).isSome = true

/-- The process is dead, for ever. -/
def Gone (w : World) (process : ℕ) : Prop :=
  ∃ phase, w.processes.lookup process = some ⟨false, phase⟩

/-- What a process has found out holds. -/
def Grounded (w : World) (process : ℕ) : Phase → Prop
  | .judging found => w.Started found
  | .weighing found => w.Started found
  | .clearing refused => ∀ found, refused = some found → w.Gone found
  | .replacing removal => w.Gone removal.expected
  | .reaping removal => w.Gone removal.expected
  | .closing removal => removal.expected = process
  | _ => True

/-- What the files and the processes have to do with each other. -/
structure Sound (w : World) : Prop where
  socket : ∀ found, w.socket = some found → w.Started found
  registry : ∀ found, w.registry = some found → w.Started found
  grounded : ∀ p process, w.processes.lookup p = some process → w.Grounded p process.phase
  bound : ∀ p, w.processes.lookup p = some ⟨true, .registering⟩ → w.socket = some p
  serving : w.Resolves

theorem isAlive_iff : w.isAlive p = true ↔ ∃ phase, w.processes.lookup p = some ⟨true, phase⟩ := by
  unfold isAlive
  rw [Option.any_eq_true]
  constructor
  · rintro ⟨⟨_, phase⟩, hlookup, halive⟩
    dsimp only at halive
    exact ⟨phase, halive ▸ hlookup⟩
  · rintro ⟨_, hlookup⟩
    exact ⟨_, hlookup, rfl⟩

theorem Gone.not_alive (h : w.Gone p) : w.isAlive p = false := by
  obtain ⟨_, hlookup⟩ := h
  unfold isAlive
  rw [hlookup]
  rfl

theorem Started.gone (h : w.Started p) (hdead : ¬ w.isAlive p = true) : w.Gone p := by
  obtain ⟨⟨alive, phase⟩, hlookup⟩ := Option.isSome_iff_exists.mp h
  cases alive with
  | false => exact ⟨phase, hlookup⟩
  | true => exact absurd (isAlive_iff.mpr ⟨phase, hlookup⟩) hdead

/-! ### Steps -/

/-- The processes that there were are there still, and the dead ones are dead. -/
structure Follows (w w' : World) : Prop where
  started : ∀ p, w.Started p → w'.Started p
  gone : ∀ p, w.Gone p → w'.Gone p

theorem Follows.grounded {w' : World} (h : Follows w w') (hphase : w.Grounded p phase) :
    w'.Grounded p phase := by
  cases phase with
  | judging found | weighing found => exact h.started found hphase
  | clearing => exact fun found hfound => h.gone found (hphase found hfound)
  | replacing | reaping => exact h.gone _ hphase
  | closing => exact hphase
  | _ => trivial

/-- A process that is not dead goes to a phase. -/
theorem follows_setPhase (hp : ¬ w.Gone p) (socket registry : Option ℕ) (phase : Phase) :
    Follows w ({ w with socket, registry }.setPhase p phase) := by
  have hlookup : ∀ other, ({ w with socket, registry }.setPhase p phase).processes.lookup other =
      if other = p then some ⟨true, phase⟩ else w.processes.lookup other :=
    fun other => SortedMap.lookup_insert
  constructor
  · intro other hother
    unfold Started
    rw [hlookup]
    split
    · rfl
    · exact hother
  · rintro other ⟨earlier, hother⟩
    have hne : other ≠ p := by
      rintro rfl
      exact hp ⟨earlier, hother⟩
    exact ⟨earlier, (hlookup other).trans ((if_neg hne).trans hother)⟩

/-- A process goes to a phase, and the files may change. -/
theorem Sound.moved (h : Sound w) (hp : ¬ w.Gone p) {socket registry : Option ℕ}
    (hgrounded : w.Grounded p phase)
    (hsocket : ∀ found, socket = some found → found = p ∨ w.Started found)
    (hregistry : ∀ found, registry = some found → found = p ∨ w.Started found)
    (hbound : phase = .registering → socket = some p)
    (hserving : phase = .serving → socket = some p ∧ registry = some p)
    (hothers : ∀ q, q ≠ p → w.processes.lookup q = some ⟨true, .registering⟩ → socket = some q)
    (hresolves : ∀ q, q ≠ p → w.processes.lookup q = some ⟨true, .serving⟩ →
      socket = some q ∧ registry = some q) :
    Sound ({ w with socket, registry }.setPhase p phase) := by
  have hfollows := follows_setPhase hp socket registry phase
  have hlookup : ∀ other, ({ w with socket, registry }.setPhase p phase).processes.lookup other =
      if other = p then some ⟨true, phase⟩ else w.processes.lookup other :=
    fun other => SortedMap.lookup_insert
  have hself : ({ w with socket, registry }.setPhase p phase).Started p := by
    unfold Started
    rw [hlookup, if_pos rfl]
    rfl
  constructor
  · intro found hfound
    rcases hsocket found hfound with rfl | hstarted
    · exact hself
    · exact hfollows.started found hstarted
  · intro found hfound
    rcases hregistry found hfound with rfl | hstarted
    · exact hself
    · exact hfollows.started found hstarted
  · intro other process hother
    rw [hlookup] at hother
    split at hother
    · rename_i heq
      cases hother
      exact hfollows.grounded (heq ▸ hgrounded)
    · exact hfollows.grounded (h.grounded other process hother)
  · intro other hother
    rw [hlookup] at hother
    split at hother
    · rename_i heq
      cases hother
      exact heq ▸ hbound rfl
    · rename_i hne
      exact hothers other hne hother
  · intro other hother
    rw [hlookup] at hother
    split at hother
    · rename_i heq
      cases hother
      exact heq ▸ hserving rfl
    · rename_i hne
      exact hresolves other hne hother

/-- A file stays or, where no other living process has made it, it goes. -/
def Yields (w : World) (p : ℕ) (file after : Option ℕ) : Prop :=
  after = file ∨ after = none ∧ ∀ q, q ≠ p → w.isAlive q = true → file ≠ some q

theorem Yields.stays {file after : Option ℕ} (h : w.Yields p file after) (hq : q ≠ p)
    (halive : w.isAlive q = true) (hfile : file = some q) : after = some q := by
  rcases h with heq | ⟨-, hother⟩
  · exact heq.trans hfile
  · exact absurd hfile (hother q hq halive)

/-- What a process does next to its own files. -/
structure Proceeds (w : World) (p : ℕ) (w' : World) : Prop where
  sound : Sound w'
  spares : ∀ q, w.isAlive q = true → p ≠ q →
    (w.socket = some q → w'.socket ≠ none) ∧ (w.registry = some q → w'.registry ≠ none)

/-- A process unlinks what it may and goes on, without having its socket in place. -/
theorem Sound.proceeds (h : Sound w) (hp : ¬ w.Gone p) {socket registry : Option ℕ}
    (hsocket : w.Yields p w.socket socket) (hregistry : w.Yields p w.registry registry)
    (hgrounded : w.Grounded p phase) (hregistering : phase ≠ .registering)
    (hserving : phase ≠ .serving) :
    Proceeds w p ({ w with socket, registry }.setPhase p phase) := by
  have hstarted : ∀ {file after : Option ℕ}, (∀ found, file = some found → w.Started found) →
      w.Yields p file after → ∀ found, after = some found → found = p ∨ w.Started found := by
    intro _ _ hfile hyields found hfound
    rcases hyields with heq | ⟨hnone, -⟩
    · exact Or.inr (hfile found (heq.symm.trans hfound))
    · rw [hnone] at hfound
      cases hfound
  constructor
  · refine h.moved hp hgrounded (hstarted h.socket hsocket) (hstarted h.registry hregistry)
      (fun heq => absurd heq hregistering) (fun heq => absurd heq hserving) ?_ ?_
    · intro q hq hlookup
      exact hsocket.stays hq (isAlive_iff.mpr ⟨_, hlookup⟩) (h.bound q hlookup)
    · intro q hq hlookup
      obtain ⟨hbound, hpublished⟩ := h.serving q hlookup
      have halive := isAlive_iff.mpr ⟨_, hlookup⟩
      exact ⟨hsocket.stays hq halive hbound, hregistry.stays hq halive hpublished⟩
  · intro q halive hne
    constructor
    · intro hbound hnone
      have hstays := hsocket.stays (Ne.symm hne) halive hbound
      cases hstays.symm.trans hnone
    · intro hpublished hnone
      have hstays := hregistry.stays (Ne.symm hne) halive hpublished
      cases hstays.symm.trans hnone

/-- Nothing is unlinked. -/
theorem Sound.goes (h : Sound w) (hp : ¬ w.Gone p) (hgrounded : w.Grounded p phase)
    (hregistering : phase ≠ .registering) (hserving : phase ≠ .serving) :
    Proceeds w p (w.setPhase p phase) :=
  h.proceeds hp (Or.inl rfl) (Or.inl rfl) hgrounded hregistering hserving

theorem Sound.stays (h : Sound w) (p : ℕ) : Proceeds w p w := by
  refine ⟨h, fun q _ _ => ⟨fun hbound hnone => ?_, fun hpublished hnone => ?_⟩⟩
  · rw [hbound] at hnone
    cases hnone
  · rw [hpublished] at hnone
    cases hnone

/-- What a removal unlinks is its instance's, which is dead or the process itself. -/
theorem yields_none {file : Option ℕ} {expected : ℕ} (hexpected : w.Gone expected ∨ expected = p)
    (hfinds : file = none ∨ file = some expected) : w.Yields p file none := by
  refine Or.inr ⟨rfl, fun q hq halive hfile => ?_⟩
  rcases hfinds with hnone | hsome
  · rw [hfile] at hnone
    cases hnone
  · rw [hfile] at hsome
    cases hsome
    rcases hexpected with hgone | heq
    · rw [hgone.not_alive] at halive
      cases halive
    · exact hq heq

theorem remove_cases (w : World) (removal : Removal) : ∃ socket registry next result,
      w.remove removal = ({ w with socket, registry }, next, result) ∧
      next.expected = removal.expected ∧
      (socket = w.socket ∨ removal.stage = .socket ∧ socket = none) ∧
      (registry = w.registry ∨ removal.stage = .registry ∧ registry = none) := by
  unfold remove
  split
  · split <;> exact ⟨_, _, _, _, rfl, rfl, Or.inl rfl, Or.inl rfl⟩
  · split <;> exact ⟨_, _, _, _, rfl, rfl, Or.inl rfl, Or.inl rfl⟩
  · rename_i hstage
    exact ⟨_, _, _, _, rfl, rfl, Or.inr ⟨hstage, rfl⟩, Or.inl rfl⟩
  · split <;> exact ⟨_, _, _, _, rfl, rfl, Or.inl rfl, Or.inl rfl⟩
  · rename_i hstage
    split
    · exact ⟨_, _, _, _, rfl, rfl, Or.inl rfl, Or.inl rfl⟩
    · exact ⟨_, _, _, _, rfl, rfl, Or.inl rfl, Or.inr ⟨hstage, rfl⟩⟩

theorem remove_yields (removal : Removal)
    (hexpected : w.Gone removal.expected ∨ removal.expected = p)
    (hfinds : w.FindsInstance removal) : ∃ socket registry next result,
      w.remove removal = ({ w with socket, registry }, next, result) ∧
      next.expected = removal.expected ∧ w.Yields p w.socket socket ∧
      w.Yields p w.registry registry := by
  obtain ⟨socket, registry, next, result, heq, hnext, hsocket, hregistry⟩ := w.remove_cases removal
  refine ⟨socket, registry, next, result, heq, hnext, ?_, ?_⟩
  · rcases hsocket with hsame | ⟨hstage, rfl⟩
    · exact Or.inl hsame
    · unfold FindsInstance at hfinds
      rw [hstage] at hfinds
      exact yields_none hexpected hfinds
  · rcases hregistry with hsame | ⟨hstage, rfl⟩
    · exact Or.inl hsame
    · unfold FindsInstance at hfinds
      rw [hstage] at hfinds
      exact yields_none hexpected hfinds

theorem Sound.advance (h : Sound w) (hp : w.processes.lookup p = some ⟨true, phase⟩)
    (hfinds : w.Finds phase) : Proceeds w p (w.advance p phase) := by
  have hlive : ¬ w.Gone p := by
    rintro ⟨_, hlookup⟩
    rw [hp] at hlookup
    cases hlookup
  have hgrounded := h.grounded p _ hp
  cases phase with
  | reading | looking =>
    dsimp only [World.advance]
    split
    · rename_i found hfound
      exact h.goes hlive (h.registry found hfound) nofun nofun
    · exact h.goes hlive trivial nofun nofun
  | judging found | weighing found =>
    dsimp only [World.advance]
    split
    · exact h.goes hlive trivial nofun nofun
    · rename_i hdead
      exact h.goes hlive (Started.gone hgrounded hdead) nofun nofun
  | probing =>
    dsimp only [World.advance]
    split
    · exact h.goes hlive trivial nofun nofun
    · exact h.goes hlive trivial nofun nofun
  | connecting =>
    dsimp only [World.advance]
    split
    · exact h.goes hlive trivial nofun nofun
    · rename_i hrefused
      refine h.goes hlive (fun found hfound => ?_) nofun nofun
      rw [hfound] at hrefused
      exact Started.gone (h.socket found hfound) hrefused
  | clearing refused =>
    have hyields : w.Yields p w.socket none := by
      cases refused with
      | none => exact Or.inl (hfinds.elim Eq.symm Eq.symm)
      | some found => exact yields_none (Or.inl (hgrounded found rfl)) hfinds
    have hregistry : w.Yields p w.registry w.registry := Or.inl rfl
    exact h.proceeds hlive hyields hregistry trivial nofun nofun
  | replacing removal =>
    obtain ⟨socket, registry, next, result, heq, hnext, hsocket, hregistry⟩ :=
      remove_yields (p := p) removal (Or.inl hgrounded) hfinds
    dsimp only [World.advance]
    rw [heq]
    rcases result with _ | _ | _
    · have hgone : w.Gone next.expected := hnext ▸ hgrounded
      exact h.proceeds hlive hsocket hregistry hgone nofun nofun
    · exact h.proceeds hlive hsocket hregistry trivial nofun nofun
    · exact h.proceeds hlive hsocket hregistry trivial nofun nofun
  | binding =>
    dsimp only [World.advance]
    split
    · exact h.goes hlive trivial nofun nofun
    rename_i hfree
    have hnone : w.socket = none := Option.not_isSome_iff_eq_none.mp hfree
    -- nobody else has a socket in place, so nobody else is bound
    have hothers : ∀ q phase, w.processes.lookup q = some ⟨true, phase⟩ →
        w.socket = some q → False := by
      intro q _ _ hbound
      rw [hnone] at hbound
      cases hbound
    refine ⟨h.moved hlive trivial (fun found hfound => ?_)
      (fun found hfound => Or.inr (h.registry found hfound)) (fun _ => rfl) nofun ?_ ?_, ?_⟩
    · cases hfound
      exact Or.inl rfl
    · intro q _ hlookup
      exact (hothers q _ hlookup (h.bound q hlookup)).elim
    · intro q _ hlookup
      exact (hothers q _ hlookup (h.serving q hlookup).1).elim
    · intro q _ _
      refine ⟨nofun, fun hpublished heq => ?_⟩
      cases hpublished.symm.trans heq
  | registering =>
    have hbound := h.bound p hp
    have hothers : ∀ q, q ≠ p → w.socket = some q → False := by
      intro q hq hq'
      rw [hbound] at hq'
      cases hq'
      exact hq rfl
    dsimp only [World.advance]
    refine ⟨h.moved hlive trivial
      (fun found hfound => Or.inr (h.socket found hfound)) (fun found hfound => ?_) nofun
      (fun _ => ⟨hbound, rfl⟩) ?_ ?_, ?_⟩
    · cases hfound
      exact Or.inl rfl
    · intro q hq hlookup
      exact h.bound q hlookup
    · intro q hq hlookup
      exact (hothers q hq (h.serving q hlookup).1).elim
    · intro q _ hne
      exact ⟨fun hq => (hothers q (Ne.symm hne) hq).elim, fun _ => nofun⟩
  | closing removal =>
    obtain ⟨socket, registry, next, result, heq, hnext, hsocket, hregistry⟩ :=
      remove_yields (p := p) removal (Or.inr hgrounded) hfinds
    dsimp only [World.advance]
    rw [heq]
    cases result with
    | none =>
      refine h.proceeds hlive hsocket hregistry ?_ nofun nofun
      exact hnext.trans hgrounded
    | some => exact h.proceeds hlive hsocket hregistry trivial nofun nofun
  | reaping removal =>
    obtain ⟨_, _, next, result, heq, hnext, hsocket, hregistry⟩ :=
      remove_yields (p := p) removal (Or.inl hgrounded) hfinds
    dsimp only [World.advance]
    rw [heq]
    cases result with
    | none =>
      have hgone : w.Gone next.expected := hnext ▸ hgrounded
      exact h.proceeds hlive hsocket hregistry hgone nofun nofun
    | some => exact h.proceeds hlive hsocket hregistry trivial nofun nofun
  | serving | done | refused => exact h.stays p

theorem Sound.step (h : Sound w) (act : Act) (hact : w.Undisturbed act) :
    Sound (w.step act) ∧ w.Spares act := by
  have hstays := fun p => (h.stays p).spares
  cases act with
  | start p =>
    dsimp only [Spares, Act.process, World.step]
    split
    · exact ⟨h, hstays p⟩
    rename_i hnew
    have hlive : ¬ w.Gone p := by
      rintro ⟨earlier, hlookup⟩
      rw [hlookup] at hnew
      exact hnew rfl
    have hgoes : Proceeds w p (w.setPhase p .reading) := h.goes hlive trivial nofun nofun
    exact ⟨hgoes.sound, hgoes.spares⟩
  | look p =>
    dsimp only [Spares, Act.process, World.step]
    split
    · exact ⟨h, hstays p⟩
    rename_i hnew
    have hlive : ¬ w.Gone p := by
      rintro ⟨earlier, hlookup⟩
      rw [hlookup] at hnew
      exact hnew rfl
    have hgoes : Proceeds w p (w.setPhase p .looking) := h.goes hlive trivial nofun nofun
    exact ⟨hgoes.sound, hgoes.spares⟩
  | step p =>
    dsimp only [Spares, Act.process, World.step]
    split
    · rename_i phase hp
      have hadvance := h.advance hp (hact _ hp rfl)
      exact ⟨hadvance.sound, hadvance.spares⟩
    · exact ⟨h, hstays p⟩
  | close p =>
    dsimp only [Spares, Act.process, World.step]
    split
    · rename_i hp
      have hlive : ¬ w.Gone p := by
        rintro ⟨_, hlookup⟩
        rw [hp] at hlookup
        cases hlookup
      have hgoes : Proceeds w p (w.setPhase p (.closing ⟨p, .first⟩)) :=
        h.goes hlive rfl nofun nofun
      exact ⟨hgoes.sound, hgoes.spares⟩
    · exact ⟨h, hstays p⟩
  | die p =>
    refine ⟨?_, hstays p⟩
    dsimp only [World.step]
    have hlookup : ∀ other, (w.processes.adjust p fun found =>
        { found with alive := false }).lookup other =
          if other = p then (w.processes.lookup other).map fun found =>
            { found with alive := false } else w.processes.lookup other :=
      fun other => SortedMap.lookup_adjust _
    have hlive : ∀ other phase, (w.processes.adjust p fun found =>
        { found with alive := false }).lookup other = some ⟨true, phase⟩ →
          w.processes.lookup other = some ⟨true, phase⟩ := by
      intro other phase hother
      rw [hlookup] at hother
      split at hother
      · obtain ⟨found, -, heq⟩ := Option.map_eq_some_iff.mp hother
        cases heq
      · exact hother
    have hfollows : Follows w { w with
        processes := w.processes.adjust p fun found => { found with alive := false } } := by
      constructor
      · intro other hother
        unfold Started
        rw [hlookup]
        split
        · rw [Option.isSome_map]
          exact hother
        · exact hother
      · rintro other ⟨phase, hother⟩
        refine ⟨phase, ?_⟩
        rw [hlookup, hother]
        split <;> rfl
    refine ⟨fun found hfound => hfollows.started found (h.socket found hfound),
      fun found hfound => hfollows.started found (h.registry found hfound), ?_,
      fun other hother => h.bound other (hlive other _ hother),
      fun other hother => h.serving other (hlive other _ hother)⟩
    intro other process hother
    rw [hlookup] at hother
    split at hother
    · obtain ⟨found, hfound, rfl⟩ := Option.map_eq_some_iff.mp hother
      exact hfollows.grounded (h.grounded other found hfound)
    · exact hfollows.grounded (h.grounded other process hother)

theorem sound_start : Sound {} :=
  ⟨nofun, nofun, nofun, nofun, nofun⟩

/-- In a run in which each process finds what it unlinks as it was, none of them unlinks the files
of a living one, and at any time a process that serves the session is the one that its name stands
for. -/
theorem run_spares (acts : List Act) (h : Throughout run Undisturbed acts) :
    Throughout run Spares acts ∧ ∀ n, (run (acts.take n)).Resolves := by
  have hsound : ∀ acts, Throughout run Undisturbed acts → Sound (run acts) := by
    intro acts hacts
    refine hacts.induct (fun acts => Sound (run acts)) sound_start ?_
    intro acts act hbefore hact
    rw [run_concat]
    exact (hbefore.step act hact).1
  constructor
  · rintro earlier act later rfl
    exact ((hsound earlier h.of_append).step act (h earlier act later rfl)).2
  · intro n
    rw [← List.take_append_drop n acts] at h
    exact (hsound _ h.of_append).serving

/-- A process crashes before it has registered. Another one finds its socket dead, and a third one
takes its place. -/
def contested : List Act :=
  [.start 1, .step 1, .step 1, .step 1, .die 1, .start 2, .step 2, .step 2, .step 2,
    .start 3, .step 3, .step 3, .step 3, .step 3, .step 3, .step 3]

theorem contested_spares : Throughout run Spares contested ∧
    ∀ n, (run (contested.take n)).Resolves :=
  run_spares contested (by decide +kernel)

/-- The second one unlinks the socket of the third one, which serves the session. -/
theorem contested_lost : ¬ ∀ acts, Throughout run Spares acts ∧
    ∀ n, (run (acts.take n)).Resolves := by
  intro hall
  have hresolves := (hall (contested ++ [Act.step 2])).2 17
  have hserving : (run ((contested ++ [Act.step 2]).take 17)).processes.lookup 3 =
      some ⟨true, .serving⟩ := by
    decide +kernel
  have hlost : (run ((contested ++ [Act.step 2]).take 17)).socket = none := by
    decide +kernel
  have hkept := (hresolves 3 hserving).1
  rw [hlost] at hkept
  cases hkept

end World

end Vivido.Rendezvous
