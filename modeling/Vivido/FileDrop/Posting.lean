import Vivido.FileDrop.Indexed

/-!
How a local file comes to a producer. The manager admits the offer, and what it
admits is then posted to the owner's session, which may be gone by then, or
refuse it; nothing takes an admitted offer back.
-/

namespace Vivido.FileDrop

open Scene List Option SortedMap

/-- The registry of sessions, what encodes an offer, and whether a session's egress admits it. -/
structure Delivery (S B : Type) where
  sessions : ℕ → Option S
  payload : FileDropOffer → Option B
  encode : B → Option B
  postControl : S → ℕ → B → Bool

/-- A file that is dropped, pasted or offered by an automation request, as `open_source` opened
it, and bytes that are pasted. -/
inductive Drop where
  | dropped (opened : Option FileSource) (hit : Option (SurfaceIdentity × ℕ))
  | pastedFile (opened : Option FileSource)
  | pastedBytes (name : String) (length : ℕ)
  | automated (opened : Option FileSource) (hit : Option (SurfaceIdentity × ℕ)) (typePath : Bool)

/-- The offer can be posted to its owner. -/
def Delivery.Delivers {S B : Type} (D : Delivery S B) (owner : SessionIdentity)
    (offer : FileDropOffer) : Prop :=
  ∃ session payload body, D.sessions owner.sessionId = some session ∧
    D.payload offer = some payload ∧ D.encode payload = some body ∧
    D.postControl session offer.binding.dropId body = true

section

variable {S B : Type} (P : DropProtocol) (D : Delivery S B) (m : FileDropManager) (now : ℕ)

/-- Deliver an admitted offer to its owning session, keeping the manager's disposition. -/
def postOffer (disposition : LocalDropDisposition) :
    Option (SessionIdentity × FileDropOffer) → LocalDropDisposition
  | none => disposition
  | some (owner, offer) =>
    match D.sessions owner.sessionId with
    | none => .rejected "The remote receiver disconnected"
    | some session =>
      match D.payload offer with
      | none => .rejected "The dropped filename is invalid"
      | some payload =>
        match D.encode payload with
        | none => .rejected "The file-drop offer could not be encoded"
        | some body =>
          if D.postControl session offer.binding.dropId body then disposition
          else .rejected "The remote receiver stopped responding"

namespace FileDropManager

def handleFileDrop (opened : Option FileSource) (hit : Option (SurfaceIdentity × ℕ)) :
    FileDropManager × LocalDropDisposition :=
  let (m, disposition, offer) := m.offerLocalFile P now opened hit
  (m, postOffer D disposition offer)

def handlePastedFile (opened : Option FileSource) : FileDropManager × LocalDropDisposition :=
  let (m, disposition, offer) := m.offerLocalFile P now opened none
  (m, postOffer D disposition offer)

def handlePastedBytes (name : String) (length : ℕ) : FileDropManager × LocalDropDisposition :=
  let (m, disposition, offer) := m.offerLocalBytes P now name length none
  (m, postOffer D disposition offer)

def automationDropFile (opened : Option FileSource) (hit : Option (SurfaceIdentity × ℕ))
    (typePath : Bool) : FileDropManager × Except LocalDropDisposition (Key × String × ℕ) :=
  match m.offerAutomationFile P now opened hit typePath with
  | (m, .error disposition) => (m, .error disposition)
  | (m, .ok (handle, offer)) =>
    match postOffer D .offered (some (handle.session, offer)) with
    | .offered => (m, .ok (handle, offer.suggestedName, offer.declaredLength))
    | refused => (m, .error refused)

/-- What a drop leaves of the manager, and what it reports. -/
def handle : Drop → FileDropManager × LocalDropDisposition
  | .dropped opened hit => m.handleFileDrop P D now opened hit
  | .pastedFile opened => m.handlePastedFile P D now opened
  | .pastedBytes name length => m.handlePastedBytes P D now name length
  | .automated opened hit typePath =>
    match m.automationDropFile P D now opened hit typePath with
    | (m, .ok _) => (m, .offered)
    | (m, .error disposition) => (m, disposition)

/-- The offer is admitted of a source: it is within the ceilings of the effective binding. -/
def Admits (hit : Option (SurfaceIdentity × ℕ)) (source : Except String FileSource)
    (owner : SessionIdentity) (offer : FileDropOffer) : Prop :=
  ∃ key entry file dropId, m.effectiveBindingKey hit = some key ∧ source = .ok file ∧
    m.bindings.lookup key = some entry ∧ file.length ≤ entry.grant.maximumFileBytes ∧
    (m.offers.filter fun offer => offer.2.bindingKey offer.1.session = key ∧
      offer.2.transfer = none ∧ offer.2.terminal = none ∧ offer.2.cancelled = false).size <
        entry.grant.maximumPendingOffers ∧
    checkedSucc m.nextDropId = some dropId ∧ owner = key.context.session ∧
    offer = ⟨⟨entry.binding.producerEpoch, entry.grant.grantGeneration, entry.binding.contextId,
      entry.binding.surfaceId, entry.binding.surfaceGeneration, dropId⟩, file.suggestedName,
      file.length⟩

end FileDropManager

def Drop.hit : Drop → Option (SurfaceIdentity × ℕ)
  | .dropped _ hit | .automated _ hit _ => hit
  | _ => none

def Drop.source : Drop → Except String FileSource
  | .dropped opened _ | .pastedFile opened | .automated opened _ _ =>
    match opened with
    | some source => .ok source
    | none => .error "Only regular files can be copied"
  | .pastedBytes name length =>
    if !P.validSuggestedName name then .error "The pasted name is invalid"
    else .ok { length, suggestedName := name }

namespace FileDropManager

variable {P D}

theorem postOffer_eq (owner : SessionIdentity) (offer : FileDropOffer) :
    postOffer D .offered (some (owner, offer)) = .offered ↔ D.Delivers owner offer := by
  unfold postOffer Delivery.Delivers
  dsimp only
  cases D.sessions owner.sessionId with
  | none => simp
  | some =>
    cases D.payload offer with
    | none => simp
    | some payload =>
      cases hencode : D.encode payload with
      | none | some => simp [hencode]

/-- An offer is made of a source if and only if it is admitted. -/
theorem offerLocal_admits (m : FileDropManager) (source : Except String FileSource)
    (hit : Option (SurfaceIdentity × ℕ)) :
    ((m.offerLocal P now source hit).2.1 = .offered ↔
        (m.offerLocal P now source hit).2.2.isSome = true) ∧
      ∀ owner offer, (m.offerLocal P now source hit).2.2 = some (owner, offer) ↔
        (m.expire P now).Admits hit source owner offer := by
  unfold offerLocal Admits
  dsimp only
  generalize m.expire P now = m₁
  cases m₁.effectiveBindingKey hit with
  | none => simp
  | some key =>
    cases source with
    | error => simp
    | ok file =>
      cases hentry : m₁.bindings.lookup key with
      | none => simp [hentry]
      | some entry =>
        simp only [hentry, offerSource]
        split_ifs with hbytes hpending
        · simp [hentry, hbytes]
        · refine ⟨by simp, fun owner offer => ⟨(fun h => by cases h), ?_⟩⟩
          rintro ⟨_, entry', _, _, ⟨⟩, ⟨⟩, hentry', -, hless, -⟩
          rw [hentry] at hentry'
          cases hentry'
          exact absurd hless (not_lt.mpr hpending)
        · cases checkedSucc m₁.nextDropId with
          | none => simp
          | some dropId =>
            rw [not_lt] at hbytes
            rw [not_le] at hpending
            refine ⟨by simp, fun owner offer => ?_⟩
            constructor
            · rintro ⟨⟩
              exact ⟨key, entry, file, dropId, rfl, rfl, hentry, hbytes, hpending, rfl, rfl, rfl⟩
            · rintro ⟨_, _, _, _, ⟨⟩, ⟨⟩, hentry', -, -, ⟨⟩, rfl, rfl⟩
              rw [hentry] at hentry'
              cases hentry'
              rfl

/-- A drop posts what the manager made of it, and an automation entry comes only with an offer. -/
theorem handle_eq (drop : Drop) {after : FileDropManager} {disposition : LocalDropDisposition}
    {made : Option (SessionIdentity × FileDropOffer)}
    (h : m.offerLocal P now (drop.source P) drop.hit = (after, disposition, made))
    (hoffered : disposition = .offered ↔ made.isSome = true) :
    (m.handle P D now drop).2 = postOffer D disposition made ∧
      ∃ automation, (m.handle P D now drop).1 = { after with automation } ∧
        (made = none → automation = after.automation) := by
  cases drop with
  | automated opened hit =>
    have hcall : m.offerLocalFile P now opened hit = (after, disposition, made) := h
    cases made with
    | none =>
      have hrefused : disposition ≠ .offered := by simp [hoffered]
      simp only [handle, automationDropFile, offerAutomationFile, hcall]
      exact ⟨rfl, after.automation, rfl, fun _ => rfl⟩
    | some made =>
      obtain rfl := hoffered.mpr rfl
      simp only [handle, automationDropFile, offerAutomationFile, hcall]
      cases hpost : postOffer D .offered (some made) with
      | offered => exact ⟨rfl, _, rfl, nofun⟩
      | _ => exact ⟨rfl, _, rfl, nofun⟩
  | _ =>
    have hreport : ∀ r : LocalDropDisposition × Option (SessionIdentity × FileDropOffer),
        r = (disposition, made) → postOffer D r.1 r.2 = postOffer D disposition made := by
      rintro _ rfl
      rfl
    exact ⟨hreport _ (congrArg Prod.snd h), after.automation, congrArg Prod.fst h, fun _ => rfl⟩

/-- A refused drop leaves the manager as the expiry left it, the counter of offers apart, if and
only if every offer that is admitted can be posted. -/
theorem refused_traceless_iff (history : List Act) (drop : Drop) :
    ((((run P history).handle P D now drop).2 ≠ .offered →
        ∃ counter, ((run P history).handle P D now drop).1 =
          { (run P history).expire P now with nextDropId := counter }) ↔
      ∀ owner offer, ((run P history).expire P now).Admits drop.hit (drop.source P) owner offer →
        D.Delivers owner offer) := by
  have hindexed : ((run P history).expire P now).Indexed := (indexed_run history).step (.expire now)
  obtain ⟨hoffered, hadmits⟩ := offerLocal_admits now (run P history) (drop.source P) drop.hit
  rcases h : (run P history).offerLocal P now (drop.source P) drop.hit with
    ⟨_, _, _⟩
  rw [h] at hoffered hadmits
  obtain ⟨hreport, _, hafter, hsame⟩ := handle_eq (D := D) _ _ drop h hoffered
  rw [hreport, hafter]
  rcases offerLocal_cases h with ⟨rfl, rfl⟩ |
    ⟨owner, dropId, entry, offer, rfl, _, hnew, -, -, -, -, -, -, rfl⟩
  · refine iff_of_true (fun _ => ⟨_, by rw [hsame rfl]⟩) fun owner offer hmade => ?_
    cases (hadmits owner offer).mpr hmade
  · obtain rfl := hoffered.mpr rfl
    rw [Ne, postOffer_eq]
    constructor
    · intro hkept owner' offer' hmade
      cases (hadmits owner' offer').mpr hmade
      by_contra hfails
      obtain ⟨_, hcounter⟩ := hkept hfails
      have hoffers := congrArg FileDropManager.offers hcounter
      dsimp only at hoffers
      have hfound : ((run P history).expire P now).offers.lookup ⟨owner, dropId⟩ = some entry := by
        rw [← hoffers, lookup_insert_self]
      exact (hindexed.numbered _ _ hfound).not_gt hnew
    · intro hdelivers hrefused
      exact absurd (hdelivers owner offer ((hadmits owner offer).mp rfl)) hrefused

/-- The session is gone when the offer is to be posted, and its pending offers are one more. -/
theorem disconnected_remains :
    let absent : Delivery Unit Unit := ⟨fun _ => none, fun _ => some (), some, fun _ _ _ => true⟩
    let m := run .plain [.setBinding viewerSession shellBinding true]
    let after := m.handle .plain absent 0 (.dropped (some { length := 10, suggestedName := "a" }) none)
    after.2 = .rejected "The remote receiver disconnected" ∧
      ∀ counter, after.1 ≠ { m.expire .plain 0 with nextDropId := counter } := by
  refine ⟨by decide +kernel, fun counter h => ?_⟩
  have hsize := congrArg (·.offers.size) h
  dsimp only at hsize
  revert hsize
  decide +kernel

end FileDropManager

end

end Vivido.FileDrop
