import Vivido.Automation.Stepping

/-!
Runs of the hub. No event is lost in silence as long as each client that resumes
can be told what it missed: a subscriber whose connection lasts stays, and what
it is sent accounts for all that it is due. A client cannot be told whose queue
is full once its subscription is acknowledged.
-/

namespace Vivido.Automation

open Entry SortedMap List

variable {V : Type} {W : Wire V}

/-- Values are known by their sizes, and all frames fit. -/
def Wire.plain : Wire ℕ where
  encodedSize := id
  frame _ := some 100
  subscribed _ _ := some 100
  tooLarge := some 100

/-- What makes a subscriber leave. -/
def Act.Dismisses (act : Act V) (sub : Subscriber) : Prop :=
  match act with
  | .unsubscribe connectionId subscriptionId =>
    sub.connection = connectionId ∧ sub.id = subscriptionId
  | .disconnect connectionId => sub.connection = connectionId
  | _ => False

namespace AutomationHub

variable {s : AutomationHub V}

/-- A client that resumes can be told of what it missed. -/
def Roomy (W : Wire V) (s : AutomationHub V) : Act V → Prop
  | .subscribe connection request => s.Accepts request → ∀ c since,
      s.connections.lookup connection = some c → request.sinceEvent = some since →
        (s.acknowledged W c).isConnected = true →
          s.Tellable W (s.newSubscriber connection request) (s.acknowledged W c) request since
  | _ => True

theorem passes_step (W : Wire V) (s : AutomationHub V) (act : Act V) : Passes s (s.step W act) ∨
      (∃ id, s.connections.lookup id = none ∧
        s.step W act = { s with connections := s.connections.insert id {} }) ∨
      (∃ windowId kind value, s.step W act = s.emitPayload W windowId kind value) ∨
      ∃ connection request c, act = .subscribe connection request ∧
        s.connections.lookup connection = some c ∧ s.Accepts request ∧
          s.step W act = s.subscribedOver W connection c request := by
  cases act with
  | connect id =>
    dsimp only [step]
    split
    · exact Or.inl (.refl s)
    · rename_i hnone
      exact Or.inr (Or.inl ⟨id, by simpa using hnone, rfl⟩)
  | hangUp => exact Or.inl (passes_onConnection fun c _ => c.keeps_close)
  | stopWriting =>
    refine Or.inl (passes_onConnection fun c _ => ⟨rfl, fun hconnected => ?_⟩)
    unfold Connection.isConnected at hconnected
    simp at hconnected
  | take id => exact Or.inl (passes_take id)
  | written id => exact Or.inl (passes_written id)
  | reply _ size => exact Or.inl (passes_onConnection fun c _ => c.keeps_finishRequest size _)
  | notify _ size => exact Or.inl (passes_onConnection fun c _ => c.keeps_queueJson size)
  | emit windowId kind value => exact Or.inr (Or.inr (Or.inl ⟨windowId, kind, value, rfl⟩))
  | subscribe connection request =>
    rcases subscribe_cases W s connection request with heq | ⟨c, hc, haccepts, heq⟩
    · refine Or.inl ?_
      change Passes s (s.subscribe W connection request).1
      rw [heq]
      exact .refl s
    · exact Or.inr (Or.inr (Or.inr ⟨connection, request, c, rfl, hc, haccepts, heq⟩))
  | unsubscribe | disconnect => exact Or.inl (passes_filter _)

theorem step_sound (act : Act V) (hkept : s.Kept) (hnumbered : s.Numbered) :
    (s.step W act).Kept ∧ (s.step W act).Numbered := by
  rcases passes_step W s act with hpasses | ⟨_, hnone, heq⟩ | ⟨windowId, kind, value, heq⟩ |
    ⟨_, _, c, -, hc, -, heq⟩
  · exact ⟨hpasses.kept hkept, hpasses.numbered hnumbered⟩
  · rw [heq]
    obtain ⟨hkept', hnumbered', -⟩ := connect_spec hnone hkept hnumbered
    exact ⟨hkept', hnumbered'⟩
  · rw [heq]
    exact ⟨(hkept.emitPayload windowId kind value).1,
      emitPayload_numbered hkept hnumbered windowId kind value⟩
  · rw [heq]
    exact ⟨⟨hkept.bytes, hkept.within, hkept.count, hkept.ends, hkept.sorted, hkept.values,
      hkept.newest, hkept.limit⟩, subscribedOver_numbered hnumbered hc⟩

theorem step_accounts {act : Act V} (hkept : s.Kept) (hnumbered : s.Numbered)
    (haccounts : s.Accounts) (hroomy : s.Roomy W act) : (s.step W act).Accounts := by
  rcases passes_step W s act with hpasses | ⟨_, hnone, heq⟩ | ⟨windowId, kind, value, heq⟩ |
    ⟨_, _, c, rfl, hc, haccepts, heq⟩
  · exact hpasses.accounts haccounts
  · rw [heq]
    exact (connect_spec hnone hkept hnumbered).2.2 haccounts
  · rw [heq]
    exact emitPayload_accounts hkept hnumbered haccounts windowId kind value
  · rw [heq]
    exact subscribedOver_accounts hkept hnumbered haccounts hc fun since hsince hconnected =>
      hroomy haccepts c since hc hsince hconnected

theorem step_connected (act : Act V) (hnumbered : s.Numbered) {id : ℕ} {c : Connection V}
    (hc : s.connections.lookup id = some c) : ∃ c', (s.step W act).connections.lookup id = some c' ∧
      (c'.isConnected = true → c.isConnected = true) := by
  rcases passes_step W s act with hpasses | ⟨id', hnone, heq⟩ | ⟨windowId, kind, value, heq⟩ |
    ⟨connection, request, c₀, -, hc₀, -, heq⟩
  · obtain ⟨c', hc', hkeeps⟩ := hpasses.connections.forward hc
    exact ⟨c', hc', hkeeps.connected⟩
  · have hne : id ≠ id' := by
      rintro rfl
      rw [hc] at hnone
      cases hnone
    rw [heq]
    exact ⟨c, (lookup_insert_of_ne hne).trans hc, fun h => h⟩
  · obtain ⟨c', hc', hsent⟩ :=
      (mem_emitPayload (W := W) hnumbered windowId kind value).1.forward hc
    rw [heq]
    exact ⟨c', hc', fun h => hsent.connected.symm.trans h⟩
  · obtain ⟨⟨-, hbefore⟩, hleaves⟩ := sentTo_subscribed W s connection c₀ request
    rw [heq]
    by_cases hid : id = connection
    · subst hid
      obtain rfl := Option.some.inj (hc.symm.trans hc₀)
      exact ⟨_, lookup_insert_self, fun h => hbefore (hleaves.connected.symm.trans h)⟩
    · exact ⟨c, (lookup_insert_of_ne hid).trans hc, fun h => h⟩

theorem step_stays {act : Act V} (hnumbered : s.Numbered) {sub : Subscriber}
    (hsub : sub ∈ s.subscribers) (hact : ¬ act.Dismisses sub) {c : Connection V}
    (hc : (s.step W act).connections.lookup sub.connection = some c)
    (hconnected : c.isConnected = true) :
    ∃ sub' ∈ (s.step W act).subscribers, sub.IsAlike sub' := by
  have hsame : sub ∈ (s.step W act).subscribers →
      ∃ sub' ∈ (s.step W act).subscribers, sub.IsAlike sub' := fun h => ⟨sub, h, .refl sub⟩
  cases act with
  | connect =>
    refine hsame ?_
    dsimp only [step]
    split
    · exact hsub
    · exact hsub
  | written id =>
    change ∃ sub' ∈ (s.written id).subscribers, sub.IsAlike sub'
    unfold written
    split
    · exact ⟨sub, hsub, .refl sub⟩
    · refine ⟨_, mem_map_of_mem hsub, ?_⟩
      split
      · exact ⟨rfl, rfl, rfl, rfl, rfl, rfl, rfl⟩
      · exact .refl sub
  | emit windowId kind value =>
    exact (mem_emitPayload hnumbered windowId kind value).2.2.2 sub hsub c hc hconnected
  | subscribe connection request =>
    refine hsame ?_
    change sub ∈ (s.subscribe W connection request).1.subscribers
    rcases subscribe_cases W s connection request with heq | ⟨c, _, -, heq⟩
    · rwa [heq]
    · rw [heq]
      exact mem_append_left _ hsub
  | unsubscribe =>
    refine hsame (List.mem_filter.mpr ⟨hsub, ?_⟩)
    rw [decide_eq_true_eq]
    exact not_and_or.mp hact
  | disconnect =>
    refine hsame (List.mem_filter.mpr ⟨hsub, ?_⟩)
    rw [decide_eq_true_eq]
    exact hact
  | _ => exact hsame hsub

/-- What the subscriber has been sent over its connection: the events that it is due, in order and
each once, save for such as are in a range that it is told before it is sent a later one. -/
def Reported (s : AutomationHub V) (sub : Subscriber) (c : Connection V) : Prop :=
  ∃ log : List (Entry (StoredEvent V)), log.filterMap offered? = s.due sub ∧
    log.filterMap (seen? sub.envelope) = (c.sent sub.key).map Envelope.reads ∧
      Told StoredEvent.sequence log

theorem kept_nil : ({} : AutomationHub V).Kept :=
  ⟨rfl, Nat.zero_le _, Nat.zero_le _, rfl, .nil, nofun, nofun, Nat.zero_le _⟩

theorem numbered_nil : ({} : AutomationHub V).Numbered :=
  ⟨.nil, nofun, nofun, nofun, nofun⟩

theorem run_sound (W : Wire V) (history : List (Act V)) :
    (run W history).Kept ∧ (run W history).Numbered := by
  induction history using List.reverseRecOn with
  | nil => exact ⟨kept_nil, numbered_nil⟩
  | append_singleton _ act ih =>
    rw [run_concat]
    exact step_sound act ih.1 ih.2

theorem run_accounts {history : List (Act V)} (h : Throughout (run W) (Roomy W) history) :
    (run W history).Accounts := by
  refine h.induct (fun history => (run W history).Accounts) nofun fun history act ih hroomy => ?_
  obtain ⟨hkept, hnumbered⟩ := run_sound W history
  rw [run_concat]
  exact step_accounts hkept hnumbered ih hroomy

theorem run_known (W : Wire V) {earlier : List (Act V)} (later : List (Act V)) {id : ℕ}
    {c : Connection V} (hc : (run W earlier).connections.lookup id = some c) :
    ∃ c', (run W (earlier ++ later)).connections.lookup id = some c' := by
  induction later using List.reverseRecOn with
  | nil =>
    rw [append_nil]
    exact ⟨c, hc⟩
  | append_singleton later act ih =>
    obtain ⟨_, hc'⟩ := ih
    obtain ⟨c'', hc'', -⟩ := step_connected (W := W) act (run_sound W (earlier ++ later)).2 hc'
    rw [← append_assoc, run_concat]
    exact ⟨c'', hc''⟩

theorem dismisses_alike {act : Act V} {sub sub' : Subscriber} (h : sub.IsAlike sub') :
    act.Dismisses sub' ↔ act.Dismisses sub := by
  unfold Act.Dismisses
  rw [h.connection, h.id]

theorem run_stays {earlier later : List (Act V)} {sub : Subscriber}
    (hsub : sub ∈ (run W earlier).subscribers) (hlater : ∀ act ∈ later, ¬ act.Dismisses sub)
    {c : Connection V} (hc : (run W (earlier ++ later)).connections.lookup sub.connection = some c)
    (hconnected : c.isConnected = true) :
    ∃ sub' ∈ (run W (earlier ++ later)).subscribers, sub.IsAlike sub' := by
  induction later using List.reverseRecOn generalizing c with
  | nil =>
    rw [append_nil] at hc ⊢
    exact ⟨sub, hsub, .refl sub⟩
  | append_singleton later act ih =>
    rw [← append_assoc, run_concat] at hc ⊢
    obtain ⟨-, hnumbered⟩ := run_sound W (earlier ++ later)
    obtain ⟨_, hc₀⟩ := (run_sound W earlier).2.known sub hsub
    obtain ⟨_, hc₁⟩ := run_known W later hc₀
    obtain ⟨_, hc₂, hbefore⟩ := step_connected (W := W) act hnumbered hc₁
    obtain rfl := Option.some.inj (hc.symm.trans hc₂)
    obtain ⟨sub', hsub', halike⟩ := ih (fun act hact => hlater act (mem_append_left _ hact))
      hc₁ (hbefore hconnected)
    have hact : ¬ act.Dismisses sub' := by
      rw [dismisses_alike halike]
      exact hlater act (mem_append_right _ mem_cons_self)
    rw [← halike.connection] at hc
    obtain ⟨sub'', hsub'', halike'⟩ := step_stays hnumbered hsub' hact hc hconnected
    exact ⟨sub'', hsub'', halike.trans halike'⟩

/-- In every run the buffer is counted rightly and stays within its bounds. And where each client
that resumes can be told of what it missed, no event is lost in silence for any subscriber that
stays connected. -/
theorem run_reported (W : Wire V) (history : List (Act V)) :
    ((run W history).hung = false ∧ (run W history).replayBytes = bytesOf (run W history).replay ∧
      (run W history).replayBytes ≤ eventReplayBytes ∧
        (run W history).replay.length ≤ eventReplayCount) ∧
    (Throughout (run W) (Roomy W) history → ∀ earlier later, history = earlier ++ later →
      ∀ sub ∈ (run W earlier).subscribers, (∀ act ∈ later, ¬ act.Dismisses sub) →
        ∀ c, (run W history).connections.lookup sub.connection = some c → c.isConnected = true →
          (run W history).Reported sub c) := by
  obtain ⟨hkept, -⟩ := run_sound W history
  refine ⟨⟨hkept.ends, hkept.bytes, hkept.within, hkept.count⟩, ?_⟩
  rintro hroomy _ _ rfl _ hsub hlater c hc hconnected
  obtain ⟨sub', hsub', halike⟩ := run_stays hsub hlater hc hconnected
  rw [← halike.connection] at hc
  obtain ⟨log, hoffered, hseen, howes, -⟩ := run_accounts hroomy sub' hsub' c hc hconnected
  refine ⟨log, ?_, ?_, howes.told⟩
  · rw [hoffered, due_alike halike]
  · rw [← halike.key, ← hseen, funext halike.envelope]

/-- A client resumes when two events are gone. -/
def gapHistory : List (Act ℕ) :=
  [.connect 1, .emit none "bell" (5 * 2 ^ 20), .emit none "bell" (5 * 2 ^ 20), .subscribe 1 {
    target := none
    allWindows := true
    kinds := []
    sinceEvent := some 0 }]

def behind : Subscriber where
  id := 1
  key := 0
  connection := 1
  windowId := none
  allWindows := true
  kinds := []
  queuedEvents := 1
  start := 0

/-- It is told so before it is sent a third. -/
theorem run_reported_gap : ∃ c, (run Wire.plain (gapHistory ++ [.emit none "bell" 0])).Reported
    behind c := by
  have hlookup : ((run Wire.plain (gapHistory ++ [.emit none "bell" 0])).connections.lookup 1).any
      (·.isConnected) = true := by decide +kernel
  obtain ⟨c, hc, hconnected⟩ := (Option.any_eq_true _ _).mp hlookup
  refine ⟨c, (run_reported Wire.plain _).2 ?_ gapHistory [.emit none "bell" 0] rfl behind
    (by decide +kernel) ?_ c hc hconnected⟩
  · refine throughout_iff.mpr fun n hn => ?_
    match n with
    | 0 | 1 | 2 | 4 => exact trivial
    | 3 =>
      rintro - c _ hc hsince -
      obtain rfl := Option.some.inj hsince
      obtain rfl := Option.some.inj (hc.symm.trans
        (by decide +kernel : _ = some ({} : Connection ℕ)))
      unfold Tellable
      rw [if_pos (by decide +kernel)]
      exact Or.inl ⟨rfl, by decide +kernel⟩
  · intro _ hact
    rw [mem_singleton] at hact
    subst hact
    exact fun hdismisses => hdismisses

/-! ### A gap that cannot be told -/

def bell (sequence size : ℕ) : StoredEvent ℕ where
  sequence
  windowId := none
  kind := "bell"
  payload := .value size
  encodedSize := size + 132

/-- Two large events have come and gone, and one connection has frames to write. -/
def crowded (output : List (Option (ℕ × Envelope ℕ))) : AutomationHub ℕ where
  eventSequence := 2
  connections := SortedMap.empty.insert 1 { output }
  evicted := [bell 1 (5 * 2 ^ 20), bell 2 (5 * 2 ^ 20)]

theorem run_large : run Wire.plain [.connect 1, .emit none "bell" (5 * 2 ^ 20),
    .emit none "bell" (5 * 2 ^ 20)] = crowded [] := by
  rfl

theorem adjust_one {c : Connection ℕ} (work : Connection ℕ → Connection ℕ) :
    ((SortedMap.empty : SortedMap ℕ (Connection ℕ)).insert 1 c).adjust 1 work =
      SortedMap.empty.insert 1 (work c) := by
  rw [adjust_of_lookup _ lookup_insert_self, insert_insert]

/-- A line that is no request is answered with an error. -/
theorem step_error {output : List (Option (ℕ × Envelope ℕ))}
    (h : output.length < outputQueueFrames) :
    (crowded output).step Wire.plain (.notify 1 (some 100)) = crowded (output ++ [none]) := by
  dsimp only [step]
  unfold onConnection crowded
  rw [adjust_one, Connection.queueJson_fits rfl rfl h]

theorem run_errors {n : ℕ} (h : n ≤ outputQueueFrames) :
    (List.replicate n (Act.notify 1 (some 100))).foldl (step Wire.plain) (crowded []) =
      crowded (List.replicate n none) := by
  induction n with
  | zero => rfl
  | succ n ih =>
    rw [replicate_succ', foldl_append, ih (Nat.le_of_succ_le h), foldl_cons,
      foldl_nil, step_error (by rwa [length_replicate]), replicate_succ' (n := n)]

/-- The subscriber once it resumed, when its queue had room for the acknowledgement only. -/
def muted : Subscriber where
  id := 1
  key := 0
  connection := 1
  windowId := none
  allWindows := true
  kinds := []
  overflow := some (2, 2)
  start := 0

def resumed (output : List (Option (ℕ × Envelope ℕ))) (writing : Option (Option (ℕ × Envelope ℕ)))
    (read : List (Option (ℕ × Envelope ℕ))) : AutomationHub ℕ where
  eventSequence := 2
  subscribers := [muted]
  nextSubscriptionId := 1
  subscribed := 1
  connections := SortedMap.empty.insert 1 { output, writing, read }
  evicted := [bell 1 (5 * 2 ^ 20), bell 2 (5 * 2 ^ 20)]

theorem queueJson_full {output : List (Option (ℕ × Envelope ℕ))}
    (h : outputQueueFrames ≤ output.length) (frame : Option (ℕ × Envelope ℕ)) :
    ({ output } : Connection ℕ).queueJson (some 100) frame = ({ output }, some .full) := by
  change (if outputQueueFrames ≤ output.length then _ else _) = _
  exact if_pos h

theorem event_full {sub : Subscriber} (hsub : sub.queuedEvents < maxSubscriberEvents)
    {output : List (Option (ℕ × Envelope ℕ))} (h : outputQueueFrames ≤ output.length)
    (envelope : Envelope ℕ) :
    sub.event Wire.plain { output } envelope = ({ output }, sub, false) := by
  unfold Subscriber.event
  rw [if_neg (Nat.not_le.mpr hsub)]
  rw [show Wire.plain.frame envelope = some 100 from rfl, queueJson_full h]

theorem step_resume {output : List (Option (ℕ × Envelope ℕ))}
    (h : output.length + 1 = outputQueueFrames) : (crowded output).step Wire.plain (.subscribe 1 {
      target := none, allWindows := true, kinds := []
      sinceEvent := some 0 }) = resumed (output ++ [none]) none [] := by
  have hfull : outputQueueFrames ≤ (output ++ [none]).length := by
    rw [length_append, length_singleton]
    omega
  have hroom : output.length < outputQueueFrames := by omega
  have hack : (crowded output).acknowledged Wire.plain { output } =
      { output := output ++ [none] } := by
    unfold acknowledged Connection.finishRequest
    rw [if_neg (by simp), Connection.queueJson_fits rfl rfl hroom]
  change (crowded output).subscribedOver Wire.plain 1 { output } _ = _
  unfold subscribedOver
  dsimp only
  rw [hack]
  have hresume : ∀ sub : Subscriber, sub.overflow = none → sub.queuedEvents = 0 →
      (crowded output).resume Wire.plain sub { output := output ++ [none] }
        { target := none, allWindows := true, kinds := [], sinceEvent := some 0 } =
      ({ output := output ++ [none] }, { sub with overflow := some (2, 2) }) := by
    intro sub hnone hzero
    change sub.send Wire.plain _ _ = _
    unfold Subscriber.send
    rw [hnone]
    dsimp only
    unfold Subscriber.sendEvent
    rw [event_full (hzero ▸ by decide) hfull]
    dsimp only
    rw [hnone]
    rfl
  rw [hresume _ rfl rfl]
  unfold crowded
  rw [insert_insert]
  rfl

theorem step_take (frame : Option (ℕ × Envelope ℕ)) (output read : List (Option (ℕ × Envelope ℕ))) :
    (resumed (frame :: output) none read).step Wire.plain (.take 1) =
      resumed output (some frame) read := by
  dsimp only [step]
  unfold take onConnection resumed
  rw [adjust_one]

theorem step_written (output read : List (Option (ℕ × Envelope ℕ))) :
    (resumed output (some none) read).step Wire.plain (.written 1) =
      resumed output none (read ++ [none]) := by
  have hwriting : ((resumed output (some none) read).connections.lookup 1).bind (·.writing) =
      some none := by
    unfold resumed
    rw [lookup_insert_self]
    rfl
  dsimp only [step]
  unfold written
  rw [hwriting]
  unfold onConnection resumed
  dsimp only
  rw [adjust_one]
  rfl

/-- The run up to the resumption, and two frames that the writer takes. -/
def mutedHistory : List (Act ℕ) :=
  [.connect 1, .emit none "bell" (5 * 2 ^ 20), .emit none "bell" (5 * 2 ^ 20)] ++
    List.replicate (outputQueueFrames - 1) (.notify 1 (some 100)) ++
      [.subscribe 1 { target := none, allWindows := true, kinds := [], sinceEvent := some 0 },
        .take 1, .written 1, .take 1]

theorem run_muted : ∃ output : List (Option (ℕ × Envelope ℕ)),
    output.length + 2 = outputQueueFrames ∧ (∀ frame ∈ output, frame = none) ∧
      run Wire.plain mutedHistory = resumed output (some none) [none] := by
  obtain ⟨n, hn⟩ : ∃ n, outputQueueFrames = n + 2 := ⟨_, rfl⟩
  refine ⟨List.replicate n none, ?_, fun frame hmem => eq_of_mem_replicate hmem, ?_⟩
  · rw [length_replicate, hn]
  have herrors : (crowded (List.replicate (outputQueueFrames - 1) none)).step Wire.plain
      (.subscribe 1 {
        target := none
        allWindows := true
        kinds := []
        sinceEvent := some 0 }) = resumed (none :: none :: List.replicate n none) none [] := by
    rw [step_resume (by rw [length_replicate, hn]; omega), ← replicate_succ', hn]
    rfl
  unfold mutedHistory
  rw [run, foldl_append, foldl_append]
  change List.foldl _ (List.foldl _ (run Wire.plain _) _) _ = _
  rw [run_large, run_errors (Nat.sub_le _ _), foldl_cons, herrors, foldl_cons,
    step_take, foldl_cons, step_written, foldl_cons, step_take]
  rfl

theorem event_fits {sub : Subscriber} (hsub : sub.queuedEvents < maxSubscriberEvents)
    {c : Connection ℕ} (hc : c.isConnected = true) (h : c.output.length < outputQueueFrames)
    (envelope : Envelope ℕ) : sub.event Wire.plain c envelope =
      ({ c with output := c.output ++ [some (sub.key, envelope)] },
        { sub with queuedEvents := sub.queuedEvents + 1 }, true) := by
  unfold Subscriber.event
  rw [if_neg (Nat.not_le.mpr hsub), Connection.queueJson_fits hc rfl h]

/-- A later event is sent behind the notice of the last one only. -/
theorem send_muted {c : Connection ℕ} (hc : c.isConnected = true)
    (h : c.output.length + 1 < outputQueueFrames) (event : StoredEvent ℕ) :
    (muted.send Wire.plain c event).1.isConnected = true ∧
      (muted.send Wire.plain c event).1.sent 0 =
        c.sent 0 ++ [muted.overflowEnvelope 2 2, muted.envelope event] := by
  unfold Subscriber.send
  dsimp only [muted]
  rw [event_fits (by decide) hc (by omega)]
  dsimp only
  unfold Subscriber.sendEvent
  rw [event_fits]
  · refine ⟨hc, ?_⟩
    have hlast := Connection.sent_push (c := { c with
      output := c.output ++ [some (0, muted.overflowEnvelope 2 2)] })
        (some (0, muted.envelope event)) 0
    have hfirst := Connection.sent_push (c := c) (some (0, muted.overflowEnvelope 2 2)) 0
    exact hlast.trans ((congrArg (· ++ _) hfirst).trans (append_assoc _ _ _))
  · decide
  · exact hc
  · rw [length_append, length_singleton]
    exact h

/-- Of the events that a client asks for again, the first is lost and the client is told of the
second only. -/
theorem gap_is_silent : ¬ ∀ (W : Wire ℕ) (history earlier later : List (Act ℕ)),
    history = earlier ++ later → ∀ sub ∈ (run W earlier).subscribers,
      (∀ act ∈ later, ¬ act.Dismisses sub) →
        ∀ c, (run W history).connections.lookup sub.connection = some c →
          c.isConnected = true → (run W history).Reported sub c := by
  intro h
  obtain ⟨output, _, hnone, hrun⟩ := run_muted
  let c : Connection ℕ := { output, writing := some none, read := [none] }
  have hmuted : muted ∈ (run Wire.plain mutedHistory).subscribers := by
    rw [hrun]
    exact mem_cons_self
  have hroom : output.length + 1 < outputQueueFrames := by omega
  obtain ⟨hconnected, hsent⟩ := send_muted (c := c) rfl hroom (bell 3 0)
  have hc : c.sent 0 = [] := by
    refine List.filterMap_eq_nil_iff.mpr fun frame hmem => ?_
    have hframe : frame = none := by
      rcases (by simpa [Connection.frames, c] using hmem : frame = none ∨ frame ∈ output) with
        heq | hmem
      · exact heq
      · exact hnone frame hmem
    rw [hframe]
    rfl
  have hrun' : run Wire.plain (mutedHistory ++ [.emit none "bell" 0]) =
      (resumed output (some none) [none]).emitPayload Wire.plain none "bell" 0 := by
    rw [run_concat, hrun]
    rfl
  have hlookup : ((resumed output (some none) [none]).emitPayload Wire.plain none "bell"
      0).connections.lookup 1 = some (muted.send Wire.plain c (bell 3 0)).1 := by
    rw [(emitPayload_delivered (W := Wire.plain) none "bell" 0).1]
    change (deliver Wire.plain (bell 3 0) (SortedMap.empty.insert 1 c) [muted]).1.lookup 1 = _
    unfold deliver
    rw [show (SortedMap.empty.insert 1 c).lookup muted.connection = some c from
      lookup_insert_self]
    exact lookup_insert_self
  have hpublished := ((run_sound Wire.plain mutedHistory).1.emitPayload (W := Wire.plain) none
    "bell" 0).2
  rw [hrun] at hpublished
  obtain ⟨log, hoffered, hseen, htold⟩ := h Wire.plain _ mutedHistory [.emit none "bell" 0] rfl
    muted hmuted (fun act hact => by
      rw [mem_singleton] at hact
      subst hact
      exact fun hdismisses => hdismisses) _ (by rw [hrun']; exact hlookup) hconnected
  rw [show muted.key = 0 from rfl, hsent, hc] at hseen
  have hdue : log.filterMap offered? =
      [] ++ bell 1 (5 * 2 ^ 20) :: [bell 2 (5 * 2 ^ 20), bell 3 0] := by
    rw [hoffered, hrun']
    unfold due
    rw [hpublished]
    rfl
  have hreads : log.filterMap (seen? muted.envelope) =
      [Sum.inr (2, 2), Sum.inl (muted.envelope (bell 3 0))] := hseen
  obtain ⟨first, last, hmem, hfirst, -⟩ := htold.of_seen (y := muted.envelope (bell 3 0)) hdue
    (by rw [hreads]; simp [Subscriber.envelope, bell]) (by rw [hreads]; simp) fun _ h => by cases h
  rw [hreads] at hmem
  obtain ⟨rfl, -⟩ : first = 2 ∧ last = 2 := by simpa using hmem
  change 2 ≤ 1 at hfirst
  omega

end AutomationHub

end Vivido.Automation
