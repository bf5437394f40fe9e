import Vivido.FileDrop.Indexed

/-!
The binding of a key that is in force: that of the highest epoch a producer was
granted since the key was last removed, if that epoch was enabled and allowed.
Drops go by the bindings in force, and what a producer was told by the epochs; a
denied epoch leaves the two apart.
-/

namespace Vivido.FileDrop

open Scene SortedMap List Option

/-- The key of a binding that a session sets. -/
def FileDropBinding.key (binding : FileDropBinding) (session : SessionIdentity) :
    SurfaceIdentity :=
  ⟨⟨session, binding.contextId⟩, binding.surfaceId⟩

/-- A call that was answered with a grant, and the number of calls before it. -/
structure Acceptance where
  binding : FileDropBinding
  allow : Bool
  grant : FileDropGrant
  time : ℕ
  deriving DecidableEq, Repr

/-- The epoch was enabled and allowed. -/
def Acceptance.Enables (P : DropProtocol) (acceptance : Acceptance) : Prop :=
  P.disabled acceptance.binding = false ∧ acceptance.allow = true

instance (P : DropProtocol) : DecidablePred (Acceptance.Enables P) :=
  fun _ => inferInstanceAs (Decidable (_ ∧ _))

/-- The one with the higher epoch; the first of two with one epoch. -/
def Acceptance.higher (before : Option Acceptance) (acceptance : Acceptance) : Acceptance :=
  match before with
  | none => acceptance
  | some before =>
    if before.binding.producerEpoch < acceptance.binding.producerEpoch then acceptance else before

namespace FileDropManager

variable (P : DropProtocol)

/-- What the answer to a producer makes of the acceptances. -/
def accepted (session : SessionIdentity) (binding : FileDropBinding) (allow : Bool) (time : ℕ)
    (heard : SurfaceIdentity → Option Acceptance) :
    Except String FileDropGrant → SurfaceIdentity → Option Acceptance
  | .error _ => heard
  | .ok grant => fun key =>
    if key = binding.key session then
      some (Acceptance.higher (heard key) ⟨binding, allow, grant, time⟩)
    else heard key

/-- What a call makes of the acceptances, each the highest of its key since its last removal. -/
def hear (m : FileDropManager) (time : ℕ) (act : Act)
    (heard : SurfaceIdentity → Option Acceptance) : SurfaceIdentity → Option Acceptance :=
  match act with
  | .setBinding session binding allow =>
    accepted session binding allow time heard (m.setBinding P session binding allow).2
  | .removeSession session => fun key => if key.context.session = session then none else heard key
  | .removeContexts session contexts => fun key =>
    if key.context.session = session ∧ key.context.contextId ∈ contexts then none else heard key
  | .removeSurface gone => fun key => if key = gone then none else heard key
  | _ => heard

/-- The manager after a history, the number of calls and the acceptances. -/
def hearAll (history : List Act) :
    FileDropManager × ℕ × (SurfaceIdentity → Option Acceptance) :=
  history.foldl (fun s act => (s.1.step P act, s.2.1 + 1, s.1.hear P s.2.1 act s.2.2))
    ({}, 0, fun _ => none)

/-- The call with the highest epoch that was accepted for the key since its last removal. -/
def highest (history : List Act) (key : SurfaceIdentity) : Option Acceptance :=
  (hearAll P history).2.2 key

theorem hearAll_run (history : List Act) :
    (hearAll P history).1 = run P history ∧ (hearAll P history).2.1 = history.length := by
  induction history using List.reverseRecOn with
  | nil => exact ⟨rfl, rfl⟩
  | append_singleton history act ih =>
    rw [hearAll, foldl_concat, run_concat, length_append]
    change (hearAll P history).1.step P act = _ ∧ (hearAll P history).2.1 + 1 = _
    rw [ih.1, ih.2]
    exact ⟨rfl, rfl⟩

theorem highest_concat (history : List Act) (act : Act) : highest P (history ++ [act]) =
      (run P history).hear P history.length act (highest P history) := by
  obtain ⟨hrun, hlength⟩ := hearAll_run P history
  funext key
  rw [highest, hearAll, foldl_concat]
  change (hearAll P history).1.hear P (hearAll P history).2.1 act (hearAll P history).2.2 key = _
  rw [hrun, hlength]
  rfl

/-- The acceptance by which the key has a binding in force. -/
def inForce (history : List Act) (key : SurfaceIdentity) : Option Acceptance :=
  (highest P history key).filter fun acceptance => acceptance.Enables P

variable {P} {m m' : FileDropManager}

/-! ### A call that sets a binding -/

/-- The binding is valid and its epoch newer than what was accepted. -/
structure Newer (P : DropProtocol) (m : FileDropManager) (session : SessionIdentity)
    (binding : FileDropBinding) : Prop where
  valid : P.validBinding binding = true
  newer : ∀ previous reply, m.bindingEpochs.lookup (binding.key session) = some (previous, reply) →
    previous.producerEpoch < binding.producerEpoch

/-- What comes of a call that sets a binding. -/
inductive Sets (P : DropProtocol) (m : FileDropManager) (session : SessionIdentity)
    (binding : FileDropBinding) (allow : Bool) :
    FileDropManager × Except String FileDropGrant → Prop where
  | refused (m' : FileDropManager) (reason : String) (hsame : SameBindings m m') :
    Sets P m session binding allow (m', .error reason)
  | repeated (reply : FileDropGrant)
    (hheard : m.bindingEpochs.lookup (binding.key session) = some (binding, reply)) :
    Sets P m session binding allow (m, .ok reply)
  | disabled (m' : FileDropManager) (hnewer : Newer P m session binding)
    (hdisabled : P.disabled binding = true)
    (hbindings : m'.bindings = m.bindings.erase (binding.key session))
    (hepochs : m'.bindingEpochs =
      m.bindingEpochs.insert (binding.key session) (binding, disabledGrant binding))
    (hactivation : m'.nextActivation = m.nextActivation) :
    Sets P m session binding allow (m', .ok (disabledGrant binding))
  | allowed (m' : FileDropManager) (generation : ℕ) (hnewer : Newer P m session binding)
    (henabled : P.disabled binding = false) (hallow : allow = true)
    (hbindings : m'.bindings = m.bindings.insert (binding.key session)
      ⟨binding, grantOf binding generation true, m.nextActivation + 1⟩)
    (hepochs : m'.bindingEpochs =
      m.bindingEpochs.insert (binding.key session) (binding, grantOf binding generation true))
    (hactivation : m'.nextActivation = m.nextActivation + 1) :
    Sets P m session binding allow (m', .ok (grantOf binding generation true))
  | denied (m' : FileDropManager) (generation : ℕ) (hnewer : Newer P m session binding)
    (henabled : P.disabled binding = false) (hdenied : allow = false)
    (hgeneration : P.advanceGrant ((m.grantGenerations.lookup session).getD 0) = some generation)
    (hbindings : m'.bindings = m.bindings)
    (hepochs : m'.bindingEpochs =
      m.bindingEpochs.insert (binding.key session) (binding, grantOf binding generation false))
    (hactivation : m'.nextActivation = m.nextActivation) :
    Sets P m session binding allow (m', .ok (grantOf binding generation false))

theorem eq_of_checkedSucc {n next : ℕ} (h : checkedSucc n = some next) : next = n + 1 := by
  unfold checkedSucc at h
  split at h
  · cases h
    rfl
  · cases h

theorem sets_bind (m : FileDropManager) (session : SessionIdentity) (binding : FileDropBinding)
    (allow : Bool) (hnewer : Newer P m session binding) :
    Sets P m session binding allow (m.bind P (binding.key session) binding allow) := by
  unfold bind
  dsimp only
  split
  · rename_i hdisabled
    exact .disabled _ hnewer hdisabled rfl rfl rfl
  rename_i henabled
  rw [Bool.not_eq_true] at henabled
  split
  · exact .refused _ _ ⟨rfl, rfl, rfl⟩
  rename_i generation hgeneration
  split
  · rename_i hallow
    subst hallow
    split
    · exact .refused _ _ ⟨rfl, rfl, rfl⟩
    · rename_i activation hactivation
      rw [eq_of_checkedSucc hactivation]
      exact .allowed _ _ hnewer henabled rfl rfl rfl rfl
  · rename_i hdenied
    rw [Bool.not_eq_true] at hdenied
    subst hdenied
    exact .denied _ _ hnewer henabled rfl hgeneration rfl rfl rfl

theorem sets_setBinding (m : FileDropManager) (session : SessionIdentity)
    (binding : FileDropBinding) (allow : Bool) :
    Sets P m session binding allow (m.setBinding P session binding allow) := by
  unfold setBinding
  dsimp only
  split
  · exact .refused _ _ (.refl m)
  rename_i hvalid
  rw [Bool.not_eq_true, Bool.not_eq_false'] at hvalid
  split
  · rename_i hnone
    refine sets_bind m session binding allow ⟨hvalid, fun previous reply hheard => ?_⟩
    rw [FileDropBinding.key, hnone] at hheard
    cases hheard
  rename_i previous reply hheard
  split
  · exact .refused _ _ (.refl m)
  rename_i hstale
  split
  · split
    · rename_i hsame
      subst hsame
      exact .repeated reply hheard
    · exact .refused _ _ (.refl m)
  · rename_i hother
    refine sets_bind m session binding allow ⟨hvalid, fun before answer hbefore => ?_⟩
    rw [FileDropBinding.key, hheard] at hbefore
    cases hbefore
    omega

theorem setBinding_of_newer (m : FileDropManager) {session : SessionIdentity}
    {binding : FileDropBinding} (allow : Bool) (hnewer : Newer P m session binding) :
    m.setBinding P session binding allow = m.bind P (binding.key session) binding allow := by
  unfold setBinding
  rw [hnewer.valid]
  dsimp only
  cases hheard : m.bindingEpochs.lookup (binding.key session) with
  | none =>
    rw [FileDropBinding.key] at hheard
    simp only [hheard]
    rfl
  | some accepted =>
    obtain ⟨previous, reply⟩ := accepted
    have hlt := hnewer.newer previous reply hheard
    rw [FileDropBinding.key] at hheard
    simp only [hheard, Nat.lt_asymm hlt, hlt.ne', if_false]
    rfl

/-! ### Acceptances and epochs -/

/-- The epochs are those of the acceptances. -/
structure Heard (P : DropProtocol) (m : FileDropManager)
    (heard : SurfaceIdentity → Option Acceptance) (time : ℕ) : Prop where
  epochs : ∀ key, m.bindingEpochs.lookup key = (heard key).map fun a => (a.binding, a.grant)
  valid : ∀ key a, heard key = some a → P.validBinding a.binding = true
  earlier : ∀ key a, heard key = some a → a.time < time

/-- And the bindings are those in force, in the order of their activation. -/
structure Bound (P : DropProtocol) (m : FileDropManager)
    (heard : SurfaceIdentity → Option Acceptance) (time : ℕ) : Prop extends
    Heard P m heard time where
  entries : ∀ key entry, m.bindings.lookup key = some entry → ∃ a, heard key = some a ∧
    a.Enables P ∧ entry.binding = a.binding ∧ entry.grant = a.grant ∧
      entry.grant.state = .enabled
  present : ∀ key a, heard key = some a → a.Enables P → (m.bindings.lookup key).isSome = true
  activated : ∀ key entry, m.bindings.lookup key = some entry →
    entry.activation ≤ m.nextActivation
  ordered : ∀ key entry a key' entry' a', m.bindings.lookup key = some entry →
    heard key = some a → m.bindings.lookup key' = some entry' → heard key' = some a' →
      entry.activation ≤ entry'.activation → a.time ≤ a'.time

variable {heard heard' : SurfaceIdentity → Option Acceptance} {time : ℕ}

theorem Bound.of_same (h : Bound P m heard time) (hsame : SameBindings m m') :
    Bound P m' heard (time + 1) := by
  refine ⟨⟨?_, h.valid, fun key a ha => Nat.lt_succ_of_lt (h.earlier key a ha)⟩, ?_, ?_, ?_, ?_⟩
  · rw [hsame.epochs]
    exact h.epochs
  · rw [hsame.bindings]
    exact h.entries
  · rw [hsame.bindings]
    exact h.present
  · rw [hsame.bindings, hsame.activation]
    exact h.activated
  · rw [hsame.bindings]
    exact h.ordered

/-- Keys are removed. -/
theorem Bound.prune (h : Bound P m heard time) (gone : SurfaceIdentity → Prop) [DecidablePred gone]
    (hbindings : ∀ key, m'.bindings.lookup key = if gone key then none else m.bindings.lookup key)
    (hepochs : ∀ key, m'.bindingEpochs.lookup key =
      if gone key then none else m.bindingEpochs.lookup key)
    (hactivation : m'.nextActivation = m.nextActivation) :
    Bound P m' (fun key => if gone key then none else heard key) (time + 1) := by
  have hlookup : ∀ {key entry}, m'.bindings.lookup key = some entry →
      ¬ gone key ∧ m.bindings.lookup key = some entry := by
    intro key entry hentry
    rw [hbindings] at hentry
    split at hentry
    · cases hentry
    · exact ⟨‹_›, hentry⟩
  have hheard : ∀ {key a}, (if gone key then none else heard key) = some a →
      ¬ gone key ∧ heard key = some a := by
    intro key a ha
    split at ha
    · cases ha
    · exact ⟨‹_›, ha⟩
  refine ⟨⟨fun key => ?_, fun key a ha => h.valid key a (hheard ha).2,
    fun key a ha => Nat.lt_succ_of_lt (h.earlier key a (hheard ha).2)⟩,
    fun key entry hentry => ?_, fun key a ha henables => ?_, fun key entry hentry => ?_,
    fun key entry a key' entry' a' hentry ha hentry' ha' => ?_⟩
  · rw [hepochs]
    split
    · rfl
    · exact h.epochs key
  · obtain ⟨hstays, hentry⟩ := hlookup hentry
    rw [if_neg hstays]
    exact h.entries key entry hentry
  · obtain ⟨hstays, ha⟩ := hheard ha
    rw [hbindings, if_neg hstays]
    exact h.present key a ha henables
  · rw [hactivation]
    exact h.activated key entry (hlookup hentry).2
  · exact h.ordered key entry a key' entry' a' (hlookup hentry).2 (hheard ha).2
      (hlookup hentry').2 (hheard ha').2

/-- A newer epoch takes the place of what was accepted before. -/
theorem Heard.higher_of_newer (h : Heard P m heard time) {session : SessionIdentity}
    (acceptance : Acceptance) (hnewer : Newer P m session acceptance.binding) :
    Acceptance.higher (heard (acceptance.binding.key session)) acceptance = acceptance := by
  unfold Acceptance.higher
  split
  · rfl
  · rename_i before hbefore
    refine if_pos (hnewer.newer before.binding before.grant ?_)
    rw [h.epochs, hbefore]
    rfl

/-- A new acceptance, with what becomes of its binding. -/
theorem Bound.accept (h : Bound P m heard time) {key : SurfaceIdentity} (acceptance : Acceptance)
    (hvalid : P.validBinding acceptance.binding = true) (htime : acceptance.time = time)
    (hheard : ∀ other, heard' other = if other = key then some acceptance else heard other)
    (hepochs : m'.bindingEpochs = m.bindingEpochs.insert key (acceptance.binding, acceptance.grant))
    (hothers : ∀ other ≠ key, m'.bindings.lookup other = m.bindings.lookup other)
    (hactivation : m.nextActivation ≤ m'.nextActivation)
    (hentry : ∀ entry, m'.bindings.lookup key = some entry → acceptance.Enables P ∧
      entry.binding = acceptance.binding ∧ entry.grant = acceptance.grant ∧
        entry.grant.state = .enabled ∧ m.nextActivation < entry.activation ∧
          entry.activation ≤ m'.nextActivation)
    (hpresent : acceptance.Enables P → (m'.bindings.lookup key).isSome = true) :
    Bound P m' heard' (time + 1) := by
  have hself : heard' key = some acceptance := by rw [hheard, if_pos rfl]
  have hother : ∀ {other}, other ≠ key → heard' other = heard other := by
    intro other hne
    rw [hheard, if_neg hne]
  refine ⟨⟨fun other => ?_, fun other a ha => ?_, fun other a ha => ?_⟩,
    fun other entry hlookup => ?_, fun other a ha henables => ?_, fun other entry hlookup => ?_,
    fun first entry a second entry' a' hlookup ha hlookup' ha' hle => ?_⟩
  · rw [hepochs, lookup_insert, hheard]
    split
    · rfl
    · exact h.epochs other
  · rw [hheard] at ha
    split at ha
    · cases ha
      exact hvalid
    · exact h.valid other a ha
  · rw [hheard] at ha
    split at ha
    · cases ha
      omega
    · exact Nat.lt_succ_of_lt (h.earlier other a ha)
  · by_cases hne : other = key
    · subst hne
      obtain ⟨henables, hbinding, hgrant, hstate, -⟩ := hentry entry hlookup
      exact ⟨acceptance, hself, henables, hbinding, hgrant, hstate⟩
    · rw [hother hne]
      rw [hothers other hne] at hlookup
      exact h.entries other entry hlookup
  · by_cases hne : other = key
    · subst hne
      rw [hself] at ha
      cases ha
      exact hpresent henables
    · rw [hother hne] at ha
      rw [hothers other hne]
      exact h.present other a ha henables
  · by_cases hne : other = key
    · subst hne
      exact (hentry entry hlookup).2.2.2.2.2
    · rw [hothers other hne] at hlookup
      exact (h.activated other entry hlookup).trans hactivation
  · by_cases hnew' : second = key
    · subst hnew'
      rw [hself] at ha'
      cases ha'
      rw [hheard] at ha
      split at ha
      · cases ha
        exact le_rfl
      · have hearlier := h.earlier first a ha
        omega
    · rw [hother hnew'] at ha'
      rw [hothers second hnew'] at hlookup'
      by_cases hnew : first = key
      · subst hnew
        have habove := (hentry entry hlookup).2.2.2.2.1
        have hbelow := h.activated second entry' hlookup'
        omega
      · rw [hother hnew] at ha
        rw [hothers first hnew] at hlookup
        exact h.ordered first entry a second entry' a' hlookup ha hlookup' ha' hle

/-! ### Runs -/

variable (P) in
/-- A newer epoch of a key that has a binding in force is denied. -/
structure DeniesBound (m : FileDropManager) (session : SessionIdentity)
    (binding : FileDropBinding) (allow : Bool) : Prop extends Newer P m session binding where
  enabled : P.disabled binding = false
  denied : allow = false
  generation : (P.advanceGrant ((m.grantGenerations.lookup session).getD 0)).isSome = true
  bound : (m.bindings.lookup (binding.key session)).isSome = true

variable (P) in
def DeniesNone (m : FileDropManager) : Act → Prop
  | .setBinding session binding allow => ¬ DeniesBound P m session binding allow
  | _ => True

theorem accepted_ok (session : SessionIdentity) (binding : FileDropBinding) (allow : Bool)
    (grant : FileDropGrant) (key : SurfaceIdentity) :
    accepted session binding allow time heard (.ok grant) key =
      if key = binding.key session then
        some (Acceptance.higher (heard key) ⟨binding, allow, grant, time⟩)
      else heard key := rfl

theorem lookup_filter_gone {α : Type*} (table : SortedMap SurfaceIdentity α)
    (gone : SurfaceIdentity → Prop) [DecidablePred gone] {keep : SurfaceIdentity × α → Bool}
    (hkeep : ∀ entry, keep entry = true ↔ ¬ gone entry.1) (key : SurfaceIdentity) :
    (table.filter keep).lookup key = if gone key then none else table.lookup key := by
  split
  · rename_i hgone
    refine lookup_filter_dropped fun value => ?_
    rw [← Bool.not_eq_true, hkeep]
    exact not_not.mpr hgone
  · rename_i hstays
    exact lookup_filter_kept fun value => (hkeep _).mpr hstays

theorem Bound.setBinding (h : Bound P m heard time) (session : SessionIdentity)
    (binding : FileDropBinding) (allow : Bool) (hgood : ¬ DeniesBound P m session binding allow) :
    Bound P (m.setBinding P session binding allow).1
      (accepted session binding allow time heard (m.setBinding P session binding allow).2)
      (time + 1) := by
  have hhigher : Newer P m session binding → ∀ grant other,
      accepted session binding allow time heard (.ok grant) other =
        if other = binding.key session then some ⟨binding, allow, grant, time⟩
        else heard other := by
    intro hnewer grant other
    rw [accepted_ok]
    split
    · rename_i heq
      rw [heq]
      exact congrArg some (h.higher_of_newer ⟨binding, allow, grant, time⟩ hnewer)
    · rfl
  have hsets := sets_setBinding (P := P) m session binding allow
  generalize m.setBinding P session binding allow = result at hsets ⊢
  cases hsets with
  | refused _ _ hsame => exact h.of_same hsame
  | repeated reply hheard =>
    rw [h.epochs] at hheard
    obtain ⟨a, ha, hpair⟩ := Option.map_eq_some_iff.mp hheard
    have hbinding : a.binding = binding := congrArg Prod.fst hpair
    have hunheard : accepted session binding allow time heard (.ok reply) = heard := by
      funext key
      rw [accepted_ok]
      split
      · rename_i heq
        rw [heq, ha]
        refine congrArg some (if_neg ?_)
        rw [hbinding]
        exact lt_irrefl _
      · rfl
    rw [hunheard]
    exact h.of_same (.refl m)
  | disabled _ hnewer hdisabled hbindings hepochs hactivation =>
    have hdisables : ¬ Acceptance.Enables P ⟨binding, allow, disabledGrant binding, time⟩ := by
      intro henables
      rw [henables.1] at hdisabled
      cases hdisabled
    refine h.accept ⟨binding, allow, disabledGrant binding, time⟩ hnewer.valid rfl
      (hhigher hnewer _) hepochs (fun other hne => ?_) hactivation.ge (fun entry hlookup => ?_)
      fun henables => (hdisables henables).elim
    · rw [hbindings, lookup_erase, if_neg hne]
    · rw [hbindings, lookup_erase, if_pos rfl] at hlookup
      cases hlookup
  | allowed _ generation hnewer henabled hallow hbindings hepochs hactivation =>
    refine h.accept ⟨binding, allow, grantOf binding generation true, time⟩ hnewer.valid rfl
      (hhigher hnewer _) hepochs (fun other hne => ?_) (hactivation ▸ Nat.le_succ _)
      (fun entry hlookup => ?_) fun henables => ?_
    · rw [hbindings, lookup_insert_of_ne hne]
    · rw [hbindings, lookup_insert_self] at hlookup
      cases hlookup
      exact ⟨⟨henabled, hallow⟩, rfl, rfl, rfl, Nat.lt_succ_self _, hactivation.ge⟩
    · rw [hbindings, lookup_insert_self]
      rfl
  | denied _ generation hnewer henabled hdenied hgeneration hbindings hepochs hactivation =>
    have hunbound : m.bindings.lookup (binding.key session) = none := by
      rw [← not_isSome_iff_eq_none]
      intro hbound
      exact hgood ⟨hnewer, henabled, hdenied, by rw [hgeneration]; rfl, hbound⟩
    have hdisables :
        ¬ Acceptance.Enables P ⟨binding, allow, grantOf binding generation false, time⟩ := by
      intro henables
      have hallow : allow = true := henables.2
      rw [hallow] at hdenied
      cases hdenied
    refine h.accept ⟨binding, allow, grantOf binding generation false, time⟩ hnewer.valid rfl
      (hhigher hnewer _) hepochs (fun other hne => ?_) hactivation.ge (fun entry hlookup => ?_)
      fun henables => (hdisables henables).elim
    · rw [hbindings]
    · rw [hbindings, hunbound] at hlookup
      cases hlookup

theorem Bound.step (h : Bound P m heard time) {act : Act} (hgood : DeniesNone P m act) :
    Bound P (m.step P act) (m.hear P time act heard) (time + 1) := by
  by_cases hsetting : act.isSetting = false
  · have hheard : m.hear P time act heard = heard := by
      cases act with
      | setBinding | removeSession | removeContexts | removeSurface => cases hsetting
      | _ => rfl
    rw [hheard]
    exact h.of_same ((sameBindings_expired m act).trans (aside_step m hsetting).toSameBindings)
  cases act with
  | setBinding session binding allow => exact h.setBinding session binding allow hgood
  | serviceTimeouts now =>
    have hsame := sameBindings_expire (P := P) m now
    exact h.of_same ⟨hsame.bindings, hsame.epochs, hsame.activation⟩
  | removeSession session =>
    have hkeep : ∀ key : SurfaceIdentity, decide (key.context.session ≠ session) = true ↔
        ¬ key.context.session = session := fun _ => decide_eq_true_iff
    exact h.prune (fun key => key.context.session = session)
      (lookup_filter_gone _ _ fun entry => hkeep entry.1)
      (lookup_filter_gone _ _ fun entry => hkeep entry.1) rfl
  | removeContexts session contexts =>
    have hkeep : ∀ key : SurfaceIdentity, decide (key.context.session ≠ session ∨
        key.context.contextId ∉ contexts) = true ↔
          ¬ (key.context.session = session ∧ key.context.contextId ∈ contexts) := by
      intro key
      rw [decide_eq_true_iff, not_and_or]
    exact h.prune (fun key => key.context.session = session ∧ key.context.contextId ∈ contexts)
      (lookup_filter_gone _ _ fun entry => hkeep entry.1)
      (lookup_filter_gone _ _ fun entry => hkeep entry.1) rfl
  | removeSurface gone =>
    exact h.prune (fun key => key = gone) (fun key => lookup_erase)
      (fun key => lookup_erase) rfl
  | _ => exact (hsetting rfl).elim

theorem bound_new (heard : SurfaceIdentity → Option Acceptance) (h : ∀ key, heard key = none) :
    Bound P {} heard 0 := by
  have hnone : ∀ {key a}, heard key ≠ some a := by
    intro key a ha
    rw [h] at ha
    cases ha
  refine ⟨⟨fun key => ?_, fun key a ha => (hnone ha).elim, fun key a ha => (hnone ha).elim⟩,
    fun key entry hentry => (by cases hentry), fun key a ha => (hnone ha).elim,
    fun key entry hentry => (by cases hentry),
    fun key entry a key' entry' a' hentry => (by cases hentry)⟩
  rw [h]
  rfl

/-! ### Routing -/

/-- The binding for the whole target that was activated last among those seen. -/
def lastTarget (best : Option (SurfaceIdentity × BindingEntry))
    (entry : SurfaceIdentity × BindingEntry) : Option (SurfaceIdentity × BindingEntry) :=
  if entry.2.binding.surfaceId ≠ 0 then best
  else
    match best with
    | none => some entry
    | some last => if last.2.activation ≤ entry.2.activation then some entry else some last

theorem lastTarget_of_ne (best : Option (SurfaceIdentity × BindingEntry))
    {entry : SurfaceIdentity × BindingEntry} (h : entry.2.binding.surfaceId ≠ 0) :
    lastTarget best entry = best := if_pos h

theorem lastTarget_none {entry : SurfaceIdentity × BindingEntry}
    (h : entry.2.binding.surfaceId = 0) : lastTarget none entry = some entry :=
  if_neg (not_not.mpr h)

theorem lastTarget_some (last : SurfaceIdentity × BindingEntry)
    {entry : SurfaceIdentity × BindingEntry} (h : entry.2.binding.surfaceId = 0) :
    lastTarget (some last) entry =
      if last.2.activation ≤ entry.2.activation then some entry else some last :=
  if_neg (not_not.mpr h)

/-- Of the entries for the whole target, one with the last activation. -/
structure IsLast (entries : List (SurfaceIdentity × BindingEntry))
    (entry : SurfaceIdentity × BindingEntry) : Prop where
  mem : entry ∈ entries
  target : entry.2.binding.surfaceId = 0
  last : ∀ other ∈ entries, other.2.binding.surfaceId = 0 →
    other.2.activation ≤ entry.2.activation

theorem foldl_lastTarget (entries : List (SurfaceIdentity × BindingEntry)) :
    (entries.foldl lastTarget none = none ∧ ∀ entry ∈ entries, entry.2.binding.surfaceId ≠ 0) ∨
      ∃ entry, entries.foldl lastTarget none = some entry ∧ IsLast entries entry := by
  induction entries using List.reverseRecOn with
  | nil => exact Or.inl ⟨rfl, nofun⟩
  | append_singleton entries entry ih =>
    rw [foldl_concat]
    have hmem : ∀ other, other ∈ entries ++ [entry] ↔ other ∈ entries ∨ other = entry := by
      intro other
      rw [mem_append, mem_singleton]
    by_cases htarget : entry.2.binding.surfaceId = 0
    · refine Or.inr ?_
      rcases ih with ⟨hfold, hnone⟩ | ⟨last, hfold, hlast⟩
      · refine ⟨entry, ?_, (hmem entry).mpr (Or.inr rfl), htarget, fun other hother hzero => ?_⟩
        · rw [hfold, lastTarget_none htarget]
        · rcases (hmem other).mp hother with hother | rfl
          · exact (hnone other hother hzero).elim
          · exact le_rfl
      · rw [hfold, lastTarget_some last htarget]
        split
        · rename_i hle
          refine ⟨entry, rfl, (hmem entry).mpr (Or.inr rfl), htarget,
            fun other hother hzero => ?_⟩
          rcases (hmem other).mp hother with hother | rfl
          · exact (hlast.last other hother hzero).trans hle
          · exact le_rfl
        · rename_i hlt
          refine ⟨last, rfl, (hmem last).mpr (Or.inl hlast.mem), hlast.target,
            fun other hother hzero => ?_⟩
          rcases (hmem other).mp hother with hother | rfl
          · exact hlast.last other hother hzero
          · omega
    · rw [lastTarget_of_ne _ htarget]
      rcases ih with ⟨hfold, hnone⟩ | ⟨last, hfold, hlast⟩
      · refine Or.inl ⟨hfold, fun other hother => ?_⟩
        rcases (hmem other).mp hother with hother | rfl
        · exact hnone other hother
        · exact htarget
      · refine Or.inr ⟨last, hfold, (hmem last).mpr (Or.inl hlast.mem), hlast.target,
          fun other hother hzero => ?_⟩
        rcases (hmem other).mp hother with hother | rfl
        · exact hlast.last other hother hzero
        · exact (htarget hzero).elim

variable (P)

/-- The hit surface has no binding in force for the generation that was hit. -/
def Misses (history : List Act) (hit : Option (SurfaceIdentity × ℕ)) : Prop :=
  ∀ key generation a, hit = some (key, generation) → inForce P history key = some a →
    a.binding.surfaceGeneration ≠ generation

/-- Where a drop goes: to the surface, to the whole target as bound last, or nowhere. -/
inductive Routes (history : List Act) (hit : Option (SurfaceIdentity × ℕ)) :
    Option SurfaceIdentity → Prop where
  | surface (key : SurfaceIdentity) (a : Acceptance)
    (hhit : hit = some (key, a.binding.surfaceGeneration))
    (hforce : inForce P history key = some a) : Routes history hit (some key)
  | target (key : SurfaceIdentity) (a : Acceptance) (hmiss : Misses P history hit)
    (hforce : inForce P history key = some a) (htarget : a.binding.surfaceId = 0)
    (hlast : ∀ key' a', inForce P history key' = some a' → a'.binding.surfaceId = 0 →
      a'.time ≤ a.time) : Routes history hit (some key)
  | none (hmiss : Misses P history hit)
    (hnone : ∀ key a, inForce P history key = some a → a.binding.surfaceId ≠ 0) :
    Routes history hit none

/-- The bindings are those in force, a call that is repeated or refused changes nothing, and drops
go by the bindings in force. -/
structure Binds (history : List Act) : Prop where
  force : ∀ key, ((run P history).bindings.lookup key).map (fun e => (e.binding, e.grant)) =
    (inForce P history key).map fun a => (a.binding, a.grant)
  repeated : ∀ session allow a key, highest P history key = some a →
    a.binding.key session = key →
      (run P history).setBinding P session a.binding allow = (run P history, .ok a.grant)
  refused : ∀ session binding allow m' reason,
    (run P history).setBinding P session binding allow = (m', .error reason) →
      SameBindings (run P history) m'
  routed : ∀ hit, Routes P history hit ((run P history).effectiveBindingKey hit)

variable {P} {history : List Act}

theorem inForce_iff {key : SurfaceIdentity} {a : Acceptance} :
    inForce P history key = some a ↔ highest P history key = some a ∧ a.Enables P := by
  rw [inForce, filter_eq_some_iff, decide_eq_true_iff]

theorem Heard.repeated (h : Heard P m heard time) {session : SessionIdentity} {a : Acceptance}
    (allow : Bool) (ha : heard (a.binding.key session) = some a) :
    m.setBinding P session a.binding allow = (m, .ok a.grant) := by
  have hepoch : m.bindingEpochs.lookup (a.binding.key session) = some (a.binding, a.grant) := by
    rw [h.epochs, ha]
    rfl
  rw [FileDropBinding.key] at hepoch
  unfold setBinding
  rw [h.valid _ a ha]
  simp [hepoch]

theorem Bound.force (h : Bound P m heard time) (key : SurfaceIdentity) :
    (m.bindings.lookup key).map (fun e => (e.binding, e.grant)) =
      ((heard key).filter fun a => a.Enables P).map fun a => (a.binding, a.grant) := by
  cases hlookup : m.bindings.lookup key with
  | some entry =>
    obtain ⟨a, ha, henables, hbinding, hgrant, -⟩ := h.entries key entry hlookup
    rw [ha, filter_some, if_pos (decide_eq_true henables), map_some, map_some,
      hbinding, hgrant]
  | none =>
    cases ha : heard key with
    | none => rfl
    | some a =>
      rw [filter_some, if_neg]
      · rfl
      · intro henables
        have hsome := h.present key a ha (of_decide_eq_true henables)
        rw [hlookup] at hsome
        cases hsome

section

variable (h : Bound P (run P history) (highest P history) time)
include h

theorem Bound.entry {key : SurfaceIdentity} {a : Acceptance} (ha : inForce P history key = some a) :
    ∃ entry, (run P history).bindings.lookup key = some entry ∧ entry.binding = a.binding ∧
      entry.grant.state = .enabled := by
  obtain ⟨ha, henables⟩ := inForce_iff.mp ha
  obtain ⟨entry, hentry⟩ := Option.isSome_iff_exists.mp (h.present key a ha henables)
  obtain ⟨_, ha', -, hbinding, -, hstate⟩ := h.entries key entry hentry
  rw [ha] at ha'
  cases ha'
  exact ⟨entry, hentry, hbinding, hstate⟩

theorem Bound.acceptance {key : SurfaceIdentity} {entry : BindingEntry}
    (hentry : (run P history).bindings.lookup key = some entry) :
    ∃ a, inForce P history key = some a ∧ entry.binding = a.binding := by
  obtain ⟨a, ha, henables, hbinding, -⟩ := h.entries key entry hentry
  exact ⟨a, inForce_iff.mpr ⟨ha, henables⟩, hbinding⟩

theorem Bound.routed_target {hit : Option (SurfaceIdentity × ℕ)} (hmiss : Misses P history hit) :
    Routes P history hit
      (((run P history).bindings.entries.foldl lastTarget none).map Prod.fst) := by
  rcases foldl_lastTarget (run P history).bindings.entries with
    ⟨hfold, hnone⟩ | ⟨⟨key, entry⟩, hfold, hlast⟩
  · rw [hfold]
    refine .none hmiss fun key a ha htarget => ?_
    obtain ⟨entry, hentry, hbinding, -⟩ := h.entry ha
    refine hnone (key, entry) (mem_entries.mpr hentry) ?_
    rw [hbinding]
    exact htarget
  · rw [hfold]
    have hentry := mem_entries.mp hlast.mem
    obtain ⟨a, ha, hbinding⟩ := h.acceptance hentry
    refine .target key a hmiss ha (hbinding ▸ hlast.target) fun key' a' ha' htarget' => ?_
    obtain ⟨entry', hentry', hbinding', -⟩ := h.entry ha'
    have hle : entry'.activation ≤ entry.activation :=
      hlast.last (key', entry') (mem_entries.mpr hentry') (hbinding'.symm ▸ htarget')
    exact h.ordered key' entry' a' key entry a hentry' (inForce_iff.mp ha').1 hentry
      (inForce_iff.mp ha).1 hle

theorem Bound.routed (hit : Option (SurfaceIdentity × ℕ)) :
    Routes P history hit ((run P history).effectiveBindingKey hit) := by
  change Routes P history hit (_ <|>
    (((run P history).bindings.entries.foldl lastTarget none).map Prod.fst))
  cases hit with
  | none => exact h.routed_target fun key generation a hhit => by cases hhit
  | some hit =>
    obtain ⟨key, _⟩ := hit
    rw [bind_some]
    dsimp only
    split
    · rename_i hany
      obtain ⟨entry, hentry, hmatches⟩ := (Option.any_eq_true _ _).mp hany
      obtain ⟨a, ha, hbinding⟩ := h.acceptance hentry
      have hgeneration := (of_decide_eq_true hmatches).1
      rw [hbinding] at hgeneration
      exact .surface key a (by rw [hgeneration]) ha
    · rename_i hother
      refine h.routed_target fun key' generation' a hhit ha hgeneration => hother ?_
      cases hhit
      obtain ⟨_, hentry, hbinding, hstate⟩ := h.entry ha
      rw [hentry, any_some, decide_eq_true_iff, hbinding]
      exact ⟨hgeneration, hstate⟩

theorem Bound.binds : Binds P history where
  force := h.force
  repeated session allow a key ha hkey := by
    subst hkey
    exact h.repeated allow ha
  refused session binding allow m' reason hcall := by
    have hsets := sets_setBinding (P := P) (run P history) session binding allow
    rw [hcall] at hsets
    cases hsets with
    | refused _ _ hsame => exact hsame
  routed := h.routed

end

theorem bind_denied {session : SessionIdentity} {binding : FileDropBinding} {generation : ℕ}
    (henabled : P.disabled binding = false) (hgeneration :
      P.advanceGrant ((m.grantGenerations.lookup session).getD 0) = some generation) :
    (m.bind P (binding.key session) binding false).1.bindings = m.bindings ∧
      (m.bind P (binding.key session) binding false).2 =
        .ok (grantOf binding generation false) := by
  have hcurrent : P.advanceGrant
      ((m.grantGenerations.lookup (binding.key session).context.session).getD 0) =
        some generation := hgeneration
  simp [bind, henabled, hcurrent]

/-- A denied epoch is the highest, and leaves the binding that was in force. -/
theorem not_binds_of_deniesBound {session : SessionIdentity} {binding : FileDropBinding}
    {allow : Bool} (hheard : Heard P (run P history) (highest P history) time)
    (h : DeniesBound P (run P history) session binding allow) :
    ¬ Binds P (history ++ [.setBinding session binding allow]) := by
  intro hbinds
  obtain ⟨hnewer, henabled, rfl, hgeneration, hbound⟩ := h
  obtain ⟨generation, hgeneration⟩ := Option.isSome_iff_exists.mp hgeneration
  obtain ⟨_, hentry⟩ := Option.isSome_iff_exists.mp hbound
  have hcall := setBinding_of_newer (P := P) (run P history) false hnewer
  obtain ⟨hsame, hanswer⟩ := bind_denied henabled hgeneration
  have hforce := hbinds.force (binding.key session)
  have hhighest : highest P (history ++ [.setBinding session binding false])
      (binding.key session) =
        some ⟨binding, false, grantOf binding generation false, history.length⟩ := by
    rw [highest_concat]
    change accepted session binding false history.length (highest P history)
      ((run P history).setBinding P session binding false).2 (binding.key session) = _
    rw [hcall, hanswer, accepted_ok, if_pos rfl]
    exact congrArg some (hheard.higher_of_newer
      ⟨binding, false, grantOf binding generation false, history.length⟩ hnewer)
  have hbindings : (run P (history ++ [.setBinding session binding false])).bindings =
      (run P history).bindings := by
    rw [run_concat]
    change ((run P history).setBinding P session binding false).1.bindings = _
    rw [hcall, hsame]
  have hnone : inForce P (history ++ [.setBinding session binding false])
      (binding.key session) = none := by
    rw [inForce, hhighest, filter_some, if_neg]
    intro henables
    cases (of_decide_eq_true henables).2
  rw [hbindings, hentry, hnone] at hforce
  cases hforce

/-- The bindings are those in force all along a run if and only if no newer epoch of a key that has
one is denied. -/
theorem bindings_in_force_iff (P : DropProtocol) (history : List Act) :
    (∀ n, Binds P (history.take n)) ↔ Throughout (run P) (DeniesNone P) history := by
  refine throughout_iff_claimed
    (fun history => Bound P (run P history) (highest P history) history.length)
    (bound_new _ fun _ => rfl) (fun history h => h.binds) (fun history act h hgood => ?_)
    fun history act h hbinds => ?_
  · rw [run_concat, highest_concat, length_append]
    exact h.step hgood
  · cases act with
    | setBinding =>
      exact fun hdenies => not_binds_of_deniesBound h.toHeard hdenies hbinds
    | _ => trivial

/-- The shell's binding stays in force when its next epoch is denied. -/
theorem denied_stays_bound : ¬ ∀ history, Binds .plain history := by
  intro h
  have hforce := (h [.setBinding ⟨1, 1⟩ shellBinding true,
    .setBinding ⟨1, 1⟩ { shellBinding with producerEpoch := 2 } false]).force
      (shellBinding.key ⟨1, 1⟩)
  revert hforce
  decide +kernel

end FileDropManager

end Vivido.FileDrop
