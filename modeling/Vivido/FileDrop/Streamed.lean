import Vivido.FileDrop.Streaming

/-!
What a connection sends: never more than the credit it was given, the file from
where it resumes without gap or overlap, and in the end the digest of all of it.
The bytes that have been hashed are the file's first ones in every phase; a chunk
that waits for credit is hashed already, but not yet sent.
-/

namespace Vivido.FileDrop

open Scene List

/-- Records that lie one behind the other, each with the file's own bytes. -/
inductive Covers (content : List UInt8) (start : ℕ) : List FileData → ℕ → Prop where
  | nil : Covers content start [] start
  | concat {data : List FileData} {offset : ℕ} (h : Covers content start data offset) (length : ℕ)
      (hwithin : offset + length ≤ content.length) :
      Covers content start (data ++ [⟨offset, (content.drop offset).take length⟩]) (offset + length)

variable {content : List UInt8} {first stop : ℕ} {data : List FileData}

theorem Covers.le (h : Covers content first data stop) : first ≤ stop := by
  induction h with
  | nil => exact le_rfl
  | concat _ _ _ ih => exact ih.trans (Nat.le_add_right _ _)

namespace SourceStream

variable {S : StreamProtocol} {source : FileSource} {opening : FileTransferOpen}
  {s : SourceStream}

def IsEnded (s : SourceStream) : Prop := ∃ outcome, s.phase = .ended outcome

/-- What has been sent, and the credit it was sent on. -/
structure Sent (S : StreamProtocol) (content : List UInt8) (source : FileSource)
    (opening : FileTransferOpen) (s : SourceStream) : Prop where
  covers : ∃ stop ≤ source.length, Covers content opening.resumeOffset s.data stop
  bodies : s.sentBody = (s.data.map fun record => S.dataPrefixSize + record.bytes.length).sum
  records : s.sentRecords = s.data.length
  fits : ∀ record ∈ s.data, S.dataPrefixSize + record.bytes.length ≤ opening.maximumRecordBody
  credited : s.sentBody ≤ s.maximumBody ∧ s.sentRecords ≤ s.maximumRecords
  /-- The credit is the last that was given. -/
  last : s.granted.getLast? = some (s.maximumBody, s.maximumRecords)
  /-- Credits never decrease, in either number. -/
  grows : s.granted.Pairwise (· ≤ ·)
  /-- The end covers the file, and the digest is of all of it. -/
  finished : ∀ finish, s.finish = some finish →
    Covers content opening.resumeOffset s.data source.length ∧
      source.length ≤ content.length ∧ finish.finalLength = source.length ∧
        finish.sha256 = S.sha256 (content.take source.length)

/-- Everything before an offset is hashed, and what is to be sent of it is sent. -/
structure Reached (content : List UInt8) (source : FileSource) (opening : FileTransferOpen)
    (s : SourceStream) (bound : ℕ) : Prop where
  hashed : s.hashed = content.take bound
  within : bound ≤ content.length ∧ bound ≤ source.length
  covers : (s.offset < opening.resumeOffset ∧ s.data = []) ∨
    Covers content opening.resumeOffset s.data s.offset
  unfinished : s.finish = none

/-- Where the source is in each phase. -/
def Placed (S : StreamProtocol) (content : List UInt8) (source : FileSource)
    (opening : FileTransferOpen) (s : SourceStream) : Prop :=
  match s.phase with
  | .starting => Reached content source opening s s.offset
  | .skipping => Reached content source opening s s.offset ∧ s.offset < opening.resumeOffset
  | .reading => Reached content source opening s s.offset ∧ opening.resumeOffset ≤ s.offset ∧
      s.offset < source.length
  | .crediting chunk => Reached content source opening s (s.offset + chunk.length) ∧
      opening.resumeOffset ≤ s.offset ∧ 0 < chunk.length ∧
        S.dataPrefixSize + chunk.length ≤ opening.maximumRecordBody ∧
          chunk = (content.drop s.offset).take chunk.length
  | .finishing => Reached content source opening s s.offset ∧ opening.resumeOffset ≤ s.offset ∧
      s.offset = source.length
  | .answering _ => True
  | .ended _ => True

/-- What holds between the turns. -/
structure Sound (S : StreamProtocol) (content : List UInt8) (source : FileSource)
    (opening : FileTransferOpen) (s : SourceStream) : Prop where
  sent : s.Sent S content source opening
  placed : s.Placed S content source opening

theorem sound_start (hresume : opening.resumeOffset ≤ source.length) :
    (start opening).Sound S content source opening := by
  have hcovers : Covers content opening.resumeOffset [] opening.resumeOffset := .nil
  refine ⟨⟨⟨_, hresume, hcovers⟩, rfl, rfl, fun _ h => ?_, ⟨Nat.zero_le _, Nat.zero_le _⟩, rfl,
    pairwise_singleton _ _, fun _ h => ?_⟩, rfl, ⟨Nat.zero_le _, Nat.zero_le _⟩, ?_, rfl⟩
  · cases h
  · cases h
  · rcases (Nat.zero_le opening.resumeOffset).lt_or_eq with hlt | heq
    · exact Or.inl ⟨hlt, rfl⟩
    · right
      rw [← heq] at hcovers
      exact heq ▸ hcovers

/-- Only the phase, the offset and the hash may differ. -/
theorem Sent.of_same {s' : SourceStream} (h : s.Sent S content source opening)
    (hdata : s'.data = s.data) (hbody : s'.sentBody = s.sentBody)
    (hrecords : s'.sentRecords = s.sentRecords) (hmaximum : s'.maximumBody = s.maximumBody)
    (hmaximum' : s'.maximumRecords = s.maximumRecords) (hgranted : s'.granted = s.granted)
    (hfinish : s'.finish = s.finish) : s'.Sent S content source opening := by
  refine ⟨?_, ?_, ?_, ?_, ?_, ?_, ?_, ?_⟩
  · rw [hdata]
    exact h.covers
  · rw [hbody, hdata]
    exact h.bodies
  · rw [hrecords, hdata]
    exact h.records
  · rw [hdata]
    exact h.fits
  · rw [hbody, hrecords, hmaximum, hmaximum']
    exact h.credited
  · rw [hgranted, hmaximum, hmaximum']
    exact h.last
  · rw [hgranted]
    exact h.grows
  · rw [hdata, hfinish]
    exact h.finished

theorem Sound.fail (h : s.Sent S content source opening) (reason : String) :
    (s.fail reason).Sound S content source opening :=
  ⟨h.of_same rfl rfl rfl rfl rfl rfl rfl, trivial⟩

/-- The loop that goes on is the one that the offset asks for. -/
theorem placed_onward (h : Reached content source opening s s.offset) :
    ({ s with phase := onward source opening s.offset } : SourceStream).Placed S content source
      opening := by
  unfold onward
  split
  · rename_i hbefore
    dsimp only [Placed]
    exact ⟨⟨h.hashed, h.within, h.covers, h.unfinished⟩, hbefore⟩
  rename_i hbehind
  split
  · rename_i hmore
    dsimp only [Placed]
    exact ⟨⟨h.hashed, h.within, h.covers, h.unfinished⟩, not_lt.mp hbehind, hmore⟩
  · rename_i hnone
    dsimp only [Placed]
    exact ⟨⟨h.hashed, h.within, h.covers, h.unfinished⟩, not_lt.mp hbehind,
      le_antisymm h.within.2 (not_lt.mp hnone)⟩

theorem Sound.goOn {handled : ℕ} (h : s.Sent S content source opening)
    (hashed : s.hashed = content.take (s.offset + handled))
    (hwithin : s.offset + handled ≤ content.length ∧ s.offset + handled ≤ source.length)
    (hcovers : (s.offset + handled < opening.resumeOffset ∧ s.data = []) ∨
      Covers content opening.resumeOffset s.data (s.offset + handled)) (hfinish : s.finish = none) :
    (goOn source opening s handled).Sound S content source opening := by
  unfold SourceStream.goOn
  split
  · refine ⟨h.of_same rfl rfl rfl rfl rfl rfl rfl, ?_⟩
    exact placed_onward (s := { s with offset := s.offset + handled })
      ⟨hashed, hwithin, hcovers, hfinish⟩
  · exact .fail h _

theorem readExact_eq_ok {turn : Turn} {offset remaining : ℕ} {bytes : List UInt8}
    (h : turn.readExact content offset remaining = .ok bytes) :
    offset + remaining ≤ content.length ∧ bytes = (content.drop offset).take remaining := by
  revert h
  unfold Turn.readExact
  split
  · intro h
    cases h
  split
  · rename_i hwithin
    intro h
    cases h
    exact ⟨hwithin, rfl⟩
  · intro h
    cases h

theorem length_window {offset remaining : ℕ} (h : offset + remaining ≤ content.length) :
    ((content.drop offset).take remaining).length = remaining := by
  rw [length_take_of_le]
  rw [length_drop]
  omega

/-- With a record limit beyond the head a chunk is not empty, and fits. -/
theorem chunkSize_bounds (hpositive : S.dataPrefixSize < opening.maximumRecordBody)
    (hbound : opening.maximumRecordBody < 2 ^ 32) : 0 < S.chunkSize opening ∧
      S.dataPrefixSize + S.chunkSize opening ≤ opening.maximumRecordBody := by
  have hsize : (opening.maximumRecordBody + 2 ^ 32 - S.dataPrefixSize % 2 ^ 32) % 2 ^ 32 =
      opening.maximumRecordBody - S.dataPrefixSize := by
    rw [Nat.mod_eq_of_lt (hpositive.trans hbound)]
    omega
  unfold StreamProtocol.chunkSize
  rw [hsize]
  omega

section

variable (h : s.Sent S content source opening)
  (hreached : Reached content source opening s s.offset)
include h hreached

theorem Sound.skip
    (hresume : opening.resumeOffset ≤ source.length) (hbefore : s.offset < opening.resumeOffset)
    (turn : Turn) : (s.skip S content source opening turn).Sound S content source opening := by
  unfold SourceStream.skip
  dsimp only
  generalize hremaining :
    min (opening.resumeOffset - s.offset) (S.chunkSize opening) = remaining
  have hle : s.offset + remaining ≤ opening.resumeOffset := by omega
  split
  · exact .fail h _
  rename_i bytes hread
  obtain ⟨hwithin, rfl⟩ := readExact_eq_ok hread
  refine .goOn (h.of_same rfl rfl rfl rfl rfl rfl rfl) ?_ ⟨hwithin, hle.trans hresume⟩ ?_
    hreached.unfinished
  · dsimp only
    rw [hreached.hashed, take_add]
  -- what is before the resumption is not sent
  have hdata : s.data = [] := by
    rcases hreached.covers with ⟨-, hdata⟩ | hcovers
    · exact hdata
    · exact (hcovers.le.not_gt hbefore).elim
  dsimp only
  rw [hdata]
  rcases hle.lt_or_eq with hlt | heq
  · exact Or.inl ⟨hlt, rfl⟩
  · rw [heq]
    exact Or.inr .nil

theorem Sound.readChunk
    (hfrom : opening.resumeOffset ≤ s.offset) (hmore : s.offset < source.length)
    (hpositive : S.dataPrefixSize < opening.maximumRecordBody)
    (hbound : opening.maximumRecordBody < 2 ^ 32) (turn : Turn) :
    (s.readChunk S content source opening turn).Sound S content source opening := by
  obtain ⟨_, _⟩ := chunkSize_bounds (S := S) hpositive hbound
  unfold SourceStream.readChunk
  dsimp only
  generalize hremaining : min (source.length - s.offset) (S.chunkSize opening) = remaining
  have hle : s.offset + remaining ≤ source.length := by omega
  split
  · exact .fail h _
  rename_i bytes hread
  obtain ⟨hwithin, rfl⟩ := readExact_eq_ok hread
  refine ⟨h.of_same rfl rfl rfl rfl rfl rfl rfl, ?_⟩
  dsimp only [Placed]
  rw [length_window hwithin]
  refine ⟨⟨?_, ⟨hwithin, hle⟩, hreached.covers, hreached.unfinished⟩, hfrom, by omega, by omega,
    rfl⟩
  dsimp only
  rw [hreached.hashed, take_add]

end

theorem Sound.sendChunk {chunk : List UInt8} (h : s.Sent S content source opening)
    (hreached : Reached content source opening s (s.offset + chunk.length))
    (hfrom : opening.resumeOffset ≤ s.offset)
    (hfits : S.dataPrefixSize + chunk.length ≤ opening.maximumRecordBody)
    (hchunk : chunk = (content.drop s.offset).take chunk.length)
    (hcredit : s.hasCredit (S.dataPrefixSize + chunk.length) = true) (turn : Turn) :
    (s.sendChunk S source opening turn chunk).Sound S content source opening := by
  have hcovers : Covers content opening.resumeOffset s.data s.offset :=
    hreached.covers.resolve_left fun hbefore => hbefore.1.not_ge hfrom
  have hcovers' : Covers content opening.resumeOffset (s.data ++ [⟨s.offset, chunk⟩])
      (s.offset + chunk.length) := by
    have hconcat := hcovers.concat chunk.length hreached.within.1
    rwa [← hchunk] at hconcat
  unfold hasCredit at hcredit
  rw [decide_eq_true_eq] at hcredit
  obtain ⟨-, hbody, -, hrecords⟩ := hcredit
  unfold SourceStream.sendChunk
  split
  · exact .fail h _
  refine .goOn ⟨⟨_, hreached.within.2, hcovers'⟩, ?_, ?_, ?_, ⟨hbody, hrecords⟩, h.last, h.grows,
    fun finish hsome => ?_⟩ hreached.hashed hreached.within (Or.inr hcovers')
    hreached.unfinished
  · dsimp only
    rw [h.bodies, map_append, sum_append]
    simp
  · dsimp only
    rw [h.records, length_append]
    simp
  · intro record hrecord
    rcases List.mem_append.mp hrecord with hold | hnew
    · exact h.fits record hold
    · rw [mem_singleton] at hnew
      rw [hnew]
      exact hfits
  · dsimp only at hsome
    rw [hreached.unfinished] at hsome
    cases hsome

/-- A grant that is taken is for this transfer and lowers neither number. -/
theorem readCredit_cases (s : SourceStream) (turn : Turn) :
    (∃ reason, s.readCredit opening turn = s.fail reason) ∨
      ∃ maximum, turn.incoming = .ok ⟨opening.transferId, .maximum (.ok maximum)⟩ ∧
        s.maximumBody ≤ maximum.maximumBodyBytes ∧ s.maximumRecords ≤ maximum.maximumRecords ∧
          s.readCredit opening turn = { s with
            maximumBody := maximum.maximumBodyBytes, maximumRecords := maximum.maximumRecords
            granted := s.granted ++ [(maximum.maximumBodyBytes, maximum.maximumRecords)] } := by
  unfold readCredit
  split
  · exact Or.inl ⟨_, rfl⟩
  rename_i record hincoming
  split
  · exact Or.inl ⟨_, rfl⟩
  rename_i hobject
  rw [not_not] at hobject
  split
  · exact Or.inl ⟨_, rfl⟩
  · rename_i maximum hbody
    split
    · exact Or.inl ⟨_, rfl⟩
    split
    · exact Or.inl ⟨_, rfl⟩
    · rename_i hforward
      simp only [not_or, not_lt] at hforward
      refine Or.inr ⟨maximum, ?_, hforward.1, hforward.2.1, rfl⟩
      rw [hincoming, ← hobject, ← hbody]
  · exact Or.inl ⟨_, rfl⟩
  · exact Or.inl ⟨_, rfl⟩

theorem Sound.readCredit {chunk : List UInt8} (h : s.Sound S content source opening)
    (hphase : s.phase = .crediting chunk) (turn : Turn) :
    (s.readCredit opening turn).Sound S content source opening := by
  rcases readCredit_cases s turn with
    ⟨reason, heq⟩ | ⟨_, -, hbody, hrecords, heq⟩
  · rw [heq]
    exact .fail h.sent reason
  rw [heq]
  obtain ⟨⟨hcovers, hbodies, hcount, hfits, hcredited, hlast, hgrows, hfinished⟩, hplaced⟩ := h
  refine ⟨⟨hcovers, hbodies, hcount, hfits, ⟨hcredited.1.trans hbody, hcredited.2.trans hrecords⟩,
    getLast?_concat, ?_, hfinished⟩, ?_⟩
  · refine List.pairwise_append.mpr ⟨hgrows, pairwise_singleton _ _, fun earlier hearlier
      latest hlatest => ?_⟩
    rw [mem_singleton] at hlatest
    have hle : earlier ≤ (s.maximumBody, s.maximumRecords) := by
      obtain ⟨_, hbefore⟩ := List.getLast?_eq_some_iff.mp hlast
      rw [hbefore] at hearlier hgrows
      rcases List.mem_append.mp hearlier with hold | hnew
      · exact (List.pairwise_append.mp hgrows).2.2 earlier hold _ mem_cons_self
      · rw [List.mem_singleton.mp hnew]
    rw [hlatest]
    exact hle.trans ⟨hbody, hrecords⟩
  · unfold Placed at hplaced ⊢
    dsimp only
    rw [hphase] at hplaced ⊢
    exact ⟨⟨hplaced.1.hashed, hplaced.1.within, hplaced.1.covers, hplaced.1.unfinished⟩,
      hplaced.2⟩

theorem Sound.sendFinish (h : s.Sent S content source opening)
    (hreached : Reached content source opening s s.offset)
    (hfrom : opening.resumeOffset ≤ s.offset) (hend : s.offset = source.length) (turn : Turn) :
    (s.sendFinish S source opening turn).Sound S content source opening := by
  have hcovers : Covers content opening.resumeOffset s.data s.offset :=
    hreached.covers.resolve_left fun hbefore => hbefore.1.not_ge hfrom
  unfold SourceStream.sendFinish
  split
  · exact .fail h _
  obtain ⟨hcovered, hbodies, hcount, hfits, hcredited, hlast, hgrows, -⟩ := h
  refine ⟨⟨hcovered, hbodies, hcount, hfits, hcredited, hlast, hgrows, fun finish hfinish => ?_⟩,
    trivial⟩
  cases hfinish
  rw [hend] at hcovers
  refine ⟨hcovers, hend ▸ hreached.within.1, rfl, ?_⟩
  dsimp only
  rw [hreached.hashed, hend]

/-- The wait for the result goes on, or ends. -/
theorem readResult_cases (s : SourceStream) (turn : Turn) (sha256 : List ℕ) :
    (∃ outcome, s.readResult source opening turn sha256 = { s with phase := .ended outcome }) ∨
      (∃ maximum, turn.incoming = .ok ⟨opening.transferId, .maximum (.ok maximum)⟩) ∧
        s.readResult source opening turn sha256 = s := by
  unfold readResult
  split
  · exact Or.inl ⟨_, rfl⟩
  rename_i record hincoming
  split
  · exact Or.inl ⟨_, rfl⟩
  rename_i hobject
  rw [not_not] at hobject
  split
  · exact Or.inl ⟨_, rfl⟩
  · split
    · exact Or.inl ⟨_, rfl⟩
    · exact Or.inl ⟨_, rfl⟩
  · exact Or.inl ⟨_, rfl⟩
  · rename_i maximum hbody
    split
    · exact Or.inl ⟨_, rfl⟩
    · refine Or.inr ⟨⟨maximum, ?_⟩, rfl⟩
      rw [hincoming, ← hobject, ← hbody]
  · exact Or.inl ⟨_, rfl⟩
  · exact Or.inl ⟨_, rfl⟩

theorem Sound.readResult (h : s.Sound S content source opening) (turn : Turn) (sha256 : List ℕ) :
    (s.readResult source opening turn sha256).Sound S content source opening := by
  rcases readResult_cases s turn sha256 with ⟨_, heq⟩ | ⟨-, heq⟩
  · rw [heq]
    exact ⟨h.sent.of_same rfl rfl rfl rfl rfl rfl rfl, trivial⟩
  · rw [heq]
    exact h

/-! ### Turns -/

/-- A turn that does not find the stream ended either finds its source gone or acts. -/
theorem step_cases (s : SourceStream) (turn : Turn) :
    (s.IsEnded ∧ s.step S content source opening turn = s) ∨
      (∃ reason, s.step S content source opening turn = s.fail reason) ∨
        s.step S content source opening turn = s.act S content source opening turn := by
  unfold step
  split
  · exact Or.inl ⟨⟨_, ‹_›⟩, rfl⟩
  · exact Or.inr (Or.inl ⟨_, rfl⟩)
  · exact Or.inr (Or.inr rfl)

section

variable (h : s.Sound S content source opening) (hresume : opening.resumeOffset ≤ source.length)
  (hpositive : S.dataPrefixSize < opening.maximumRecordBody)
  (hbound : opening.maximumRecordBody < 2 ^ 32) (turn : Turn)
include h hresume hpositive hbound turn

theorem Sound.act : (s.act S content source opening turn).Sound S content source opening := by
  have hplaced := h.placed
  unfold Placed at hplaced
  unfold SourceStream.act
  cases hphase : s.phase with
  | starting =>
    rw [hphase] at hplaced
    dsimp only at hplaced ⊢
    split
    · exact .fail h.sent _
    · exact ⟨h.sent.of_same rfl rfl rfl rfl rfl rfl rfl, placed_onward hplaced⟩
  | skipping =>
    rw [hphase] at hplaced
    exact .skip h.sent hplaced.1 hresume hplaced.2 turn
  | reading =>
    rw [hphase] at hplaced
    exact .readChunk h.sent hplaced.1 hplaced.2.1 hplaced.2.2 hpositive hbound turn
  | crediting chunk =>
    rw [hphase] at hplaced
    obtain ⟨hreached, hfrom, -, hfits, hchunk⟩ := hplaced
    dsimp only
    split
    · rename_i hcredit
      exact .sendChunk h.sent hreached hfrom hfits hchunk hcredit turn
    · exact h.readCredit hphase turn
  | finishing =>
    rw [hphase] at hplaced
    exact .sendFinish h.sent hplaced.1 hplaced.2.1 hplaced.2.2 turn
  | answering sha256 => exact h.readResult turn sha256
  | ended => exact h

theorem Sound.step : (s.step S content source opening turn).Sound S content source opening := by
  rcases step_cases s turn with ⟨-, heq⟩ | ⟨reason, heq⟩ | heq
  · rw [heq]
    exact h
  · rw [heq]
    exact .fail h.sent reason
  · rw [heq]
    exact h.act hresume hpositive hbound turn

end

theorem sound_run (hresume : opening.resumeOffset ≤ source.length)
    (hpositive : S.dataPrefixSize < opening.maximumRecordBody)
    (hbound : opening.maximumRecordBody < 2 ^ 32) (turns : List Turn) :
    (run S content source opening turns).Sound S content source opening := by
  induction turns using List.reverseRecOn with
  | nil => exact sound_start hresume
  | append_singleton _ turn ih =>
    rw [run_concat]
    exact ih.step hresume hpositive hbound turn

/-! ### Progress -/

/-- How many turns are left, without those that wait. -/
def work (source : FileSource) (s : SourceStream) : ℕ :=
  match s.phase with
  | .starting => 2 * (source.length - s.offset) + 5
  | .skipping => 2 * (source.length - s.offset) + 4
  | .reading => 2 * (source.length - s.offset) + 3
  | .crediting _ => 2 * (source.length - s.offset) + 2
  | .finishing => 2
  | .answering _ => 1
  | .ended _ => 0

/-- A turn ends the stream, or leaves less to do; one that sends a chunk consumes credit. Else it
waits, for credit that a chunk lacks or for the result, and has read a grant from the connection. -/
def Progresses (S : StreamProtocol) (source : FileSource) (opening : FileTransferOpen)
    (s : SourceStream) (turn : Turn) (s' : SourceStream) : Prop :=
  s'.IsEnded ∨
    match s.phase with
    | .crediting chunk =>
      (s.hasCredit (S.dataPrefixSize + chunk.length) = false ∧ s'.phase = s.phase ∧
        ∃ maximum, turn.incoming = .ok ⟨opening.transferId, .maximum (.ok maximum)⟩ ∧
          s'.maximumBody = maximum.maximumBodyBytes ∧ s'.maximumRecords = maximum.maximumRecords) ∨
      (s'.sentRecords = s.sentRecords + 1 ∧
        s'.sentBody = s.sentBody + (S.dataPrefixSize + chunk.length) ∧ 0 < chunk.length ∧
          s'.work source < s.work source)
    | .answering _ => s' = s ∧
      ∃ maximum, turn.incoming = .ok ⟨opening.transferId, .maximum (.ok maximum)⟩
    | _ => s'.work source < s.work source

theorem work_onward (source : FileSource) (opening : FileTransferOpen) (s : SourceStream) :
    ({ s with phase := onward source opening s.offset } : SourceStream).work source ≤
      2 * (source.length - s.offset) + 4 := by
  unfold onward
  split
  · exact le_rfl
  · split
    · exact Nat.le_succ _
    · dsimp only [work]
      omega

theorem work_onward_behind (source : FileSource) (s : SourceStream)
    (hfrom : opening.resumeOffset ≤ s.offset) :
    ({ s with phase := onward source opening s.offset } : SourceStream).work source ≤
      2 * (source.length - s.offset) + 3 := by
  unfold onward
  rw [if_neg hfrom.not_gt]
  split
  · exact le_rfl
  · dsimp only [work]
    omega

theorem goOn_cases (source : FileSource) (opening : FileTransferOpen) (s : SourceStream)
    (handled : ℕ) : (goOn source opening s handled).IsEnded ∨
      goOn source opening s handled = { s with
        offset := s.offset + handled, phase := onward source opening (s.offset + handled) } := by
  unfold goOn
  split
  · exact Or.inr rfl
  · exact Or.inl ⟨_, rfl⟩

theorem work_skip (hbefore : s.offset < opening.resumeOffset)
    (hresume : opening.resumeOffset ≤ source.length) (hphase : s.phase = .skipping)
    (hsome : 0 < S.chunkSize opening) (turn : Turn) :
    (s.skip S content source opening turn).IsEnded ∨
      (s.skip S content source opening turn).work source < s.work source := by
  unfold SourceStream.skip
  dsimp only
  generalize hremaining :
    min (opening.resumeOffset - s.offset) (S.chunkSize opening) = remaining
  have hle : s.offset + remaining ≤ opening.resumeOffset := by omega
  have hpositive : 0 < remaining := by omega
  split
  · exact Or.inl ⟨_, rfl⟩
  rename_i bytes _
  rcases goOn_cases source opening
      { s with hashed := s.hashed ++ bytes } remaining with hended | heq
  · exact Or.inl hended
  right
  have hwork := work_onward source opening
    { s with hashed := s.hashed ++ bytes, offset := s.offset + remaining }
  rw [heq]
  refine hwork.trans_lt ?_
  unfold work
  rw [hphase]
  dsimp only
  omega

theorem work_sendChunk {chunk : List UInt8} (hphase : s.phase = .crediting chunk)
    (hfrom : opening.resumeOffset ≤ s.offset) (hpositive : 0 < chunk.length)
    (hwithin : s.offset + chunk.length ≤ source.length) (turn : Turn) :
    (s.sendChunk S source opening turn chunk).IsEnded ∨
      (s.sendChunk S source opening turn chunk).sentRecords = s.sentRecords + 1 ∧
        (s.sendChunk S source opening turn chunk).sentBody =
          s.sentBody + (S.dataPrefixSize + chunk.length) ∧ 0 < chunk.length ∧
            (s.sendChunk S source opening turn chunk).work source < s.work source := by
  unfold SourceStream.sendChunk
  split
  · exact Or.inl ⟨_, rfl⟩
  rcases goOn_cases source opening
      { s with
        data := s.data ++ [⟨s.offset, chunk⟩]
        sentBody := s.sentBody + (S.dataPrefixSize + chunk.length)
        sentRecords := s.sentRecords + 1 } chunk.length with hended | heq
  · exact Or.inl hended
  right
  have hwork := work_onward_behind source
    ({ s with
      data := s.data ++ [⟨s.offset, chunk⟩]
      sentBody := s.sentBody + (S.dataPrefixSize + chunk.length)
      sentRecords := s.sentRecords + 1
      offset := s.offset + chunk.length } : SourceStream) (hfrom.trans (Nat.le_add_right _ _))
  rw [heq]
  refine ⟨rfl, rfl, hpositive, hwork.trans_lt ?_⟩
  unfold work
  rw [hphase]
  dsimp only
  omega

theorem progresses_readCredit {chunk : List UInt8} (hphase : s.phase = .crediting chunk)
    (hcredit : s.hasCredit (S.dataPrefixSize + chunk.length) = false) (turn : Turn) :
    Progresses S source opening s turn (s.readCredit opening turn) := by
  unfold Progresses
  rw [hphase]
  rcases readCredit_cases s turn with ⟨_, heq⟩ | ⟨maximum, hincoming, -, -, heq⟩
  · rw [heq]
    exact Or.inl ⟨_, rfl⟩
  · rw [heq]
    exact Or.inr (Or.inl ⟨hcredit, hphase, maximum, hincoming, rfl, rfl⟩)

theorem Sound.progresses (h : s.Sound S content source opening)
    (hresume : opening.resumeOffset ≤ source.length)
    (hpositive : S.dataPrefixSize < opening.maximumRecordBody)
    (hbound : opening.maximumRecordBody < 2 ^ 32) (turn : Turn) :
    Progresses S source opening s turn (s.step S content source opening turn) := by
  rcases step_cases s turn with ⟨hended, heq⟩ | ⟨_, heq⟩ | heq
  · rw [heq]
    exact Or.inl hended
  · rw [heq]
    exact Or.inl ⟨_, rfl⟩
  rw [heq]
  have hplaced := h.placed
  unfold Placed at hplaced
  unfold SourceStream.act
  cases hphase : s.phase with
  | starting =>
    unfold Progresses
    rw [hphase]
    dsimp only
    split
    · exact Or.inl ⟨_, rfl⟩
    · refine Or.inr ((work_onward source opening s).trans_lt ?_)
      unfold work
      rw [hphase]
      exact Nat.lt_succ_self _
  | skipping =>
    rw [hphase] at hplaced
    unfold Progresses
    rw [hphase]
    exact work_skip hplaced.2 hresume hphase (chunkSize_bounds hpositive hbound).1 turn
  | reading =>
    unfold Progresses SourceStream.readChunk
    rw [hphase]
    dsimp only
    split
    · exact Or.inl ⟨_, rfl⟩
    · right
      unfold work
      rw [hphase]
      exact Nat.lt_succ_self _
  | crediting chunk =>
    rw [hphase] at hplaced
    obtain ⟨hreached, hfrom, hsome, -⟩ := hplaced
    dsimp only
    split
    · unfold Progresses
      rw [hphase]
      exact (work_sendChunk hphase hfrom hsome hreached.within.2 turn).imp_right Or.inr
    · rename_i hcredit
      exact progresses_readCredit hphase (Bool.of_not_eq_true hcredit) turn
  | finishing =>
    unfold Progresses SourceStream.sendFinish
    rw [hphase]
    dsimp only
    split
    · exact Or.inl ⟨_, rfl⟩
    · right
      unfold work
      rw [hphase]
      exact Nat.lt_succ_self 1
  | answering sha256 =>
    unfold Progresses
    rw [hphase]
    dsimp only
    rcases readResult_cases s turn sha256 with ⟨outcome, houtcome⟩ | ⟨hincoming, hsame⟩
    · rw [houtcome]
      exact Or.inl ⟨_, rfl⟩
    · rw [hsame]
      exact Or.inr ⟨rfl, hincoming⟩
  | ended outcome => exact Or.inl ⟨outcome, hphase⟩

section Accepted

open FileDropManager

/-- Three bytes are offered and accepted. -/
def threeBytes : List Act :=
  [.setBinding viewerSession shellBinding true, .offerLocalBytes 0 "abc" 3 none,
    .accept 1 viewerSession firstAcceptance]

def threeSource : FileSource := ⟨1, 3, "abc"⟩

def threeOpening : FileTransferOpen := ⟨5, 1, 1, 1, 0, 1, 1, 0, 0, 4096, 4096, 4⟩

/-- They are read, sent and finished. -/
def threeTurns : List Turn := List.replicate 4 ⟨false, 1, .ok (), .error "closed"⟩

end Accepted

end SourceStream

end Vivido.FileDrop
