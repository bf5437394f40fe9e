import Vivido.Graphics.Sound
import Vivido.Graphics.Tracking

/-!
The flag and the revision tell the renderer of every change it could see. An
operation that does not raise the flag leaves what is drawn as it was: a sweep
that reports nothing removed nothing, and a scroll that reports nothing moved
nothing.
-/

namespace Vivido.Graphics

open List Option

open Terminal.Term (saturatingAdd)

variable {F : Type}

/-! ### Stores -/

namespace ImageStore

variable {s s' : ImageStore F} {cell : CellPixels}

/-- What a store shows depends on its placements, its ids and its images as they are drawn. -/
theorem visible_congr (hplacements : s'.placements = s.placements) (hids : s'.ids = s.ids)
    (himages : (s'.images.mapValues fun _ image => image.drawn) =
      s.images.mapValues fun _ image => image.drawn) : s'.visible cell = s.visible cell := by
  have hdrawn : ∀ key, (s'.images.lookup key).map Image.drawn =
      (s.images.lookup key).map Image.drawn := by
    intro key
    have hkey := congrArg (·.lookup key) himages
    simpa only [SortedMap.lookup_mapValues] using hkey
  have hpair : ∀ (key : ℕ) (p : Placement F),
      (s'.images.lookup key).map (fun image => (image.drawn, p)) =
        (s.images.lookup key).map fun image => (image.drawn, p) := by
    intro key p
    have hkey := congrArg (Option.map (·, p)) (hdrawn key)
    simpa only [Option.map_map, Function.comp_def] using hkey
  have hplaceholders : ∀ id placement,
      (s'.virtualPlacement id placement).map (fun found => (found.1.drawn, found.2)) =
        (s.virtualPlacement id placement).map fun found => (found.1.drawn, found.2) := by
    intro id placement
    unfold virtualPlacement keyById
    rw [hids, hplacements]
    cases s.ids.lookup id with
    | none => rfl
    | some key =>
      dsimp only [bind_some]
      cases s.placements.find? _ with
      | none => rfl
      | some found =>
        simpa only [bind_some, Option.map_map, Function.comp_def] using hpair key found
  unfold visible
  rw [hplacements, himages]
  congr 1
  · exact filterMap_congr fun p _ => hpair p.image p
  · funext id placement
    exact hplaceholders id placement

theorem visible_empty (h : s.isEmpty) : s.visible cell = ({} : ImageStore F).visible cell := by
  have himages : s.images = .empty := by
    refine SortedMap.ext (eq_nil_of_length_eq_zero ?_)
    exact of_decide_eq_true h
  unfold visible virtualPlacement
  rw [himages]
  congr 1
  · exact List.filterMap_eq_nil_iff.mpr fun p _ => rfl
  funext id placement
  cases s.keyById id with
  | none => rfl
  | some =>
    dsimp only [bind_some]
    cases s.placements.find? _ with
    | none | some => rfl

/-! #### Sweeps that remove nothing -/

section

variable {move : Placement F → Image → Option (Placement F)} {reap : Reap}

theorem length_sweep (todo : List (Placement F)) (s : ImageStore F) :
    (todo.foldl (sweepOne move) s).placements.length ≤ s.placements.length + todo.length := by
  induction todo generalizing s with
  | nil => exact Nat.le_refl _
  | cons p _ ih =>
    have hrest := ih (sweepOne move s p)
    have hone : (sweepOne move s p).placements.length ≤ s.placements.length + 1 := by
      unfold sweepOne
      split
      · exact Nat.le_succ _
      · split
        · exact (length_append).le
        · exact Nat.le_succ _
    rw [foldl_cons, length_cons]
    omega

/-- A sweep after which there are as many placements moved each of them and did nothing else. -/
theorem sweep_kept {todo : List (Placement F)} {s : ImageStore F}
    (h : (todo.foldl (sweepOne move) s).placements.length = s.placements.length + todo.length) :
    ∃ moved, List.Forall₂ (fun p q => ∃ image, move p image = some q) todo moved ∧
      todo.foldl (sweepOne move) s = { s with placements := s.placements ++ moved } := by
  induction todo generalizing s with
  | nil => exact ⟨[], List.Forall₂.nil, by rw [append_nil]; rfl⟩
  | cons p rest ih =>
    rw [foldl_cons, length_cons] at h
    have hrest : (rest.foldl (sweepOne move) (sweepOne move s p)).placements.length ≤
        (sweepOne move s p).placements.length + rest.length := length_sweep rest _
    rw [h] at hrest
    rw [foldl_cons]
    cases himage : s.images.lookup p.image with
    | none =>
      have hone : sweepOne move s p = s := by
        unfold sweepOne
        rw [himage]
      rw [hone] at hrest
      omega
    | some image =>
      cases hmove : move p image with
      | none =>
        have hone : (sweepOne move s p).placements = s.placements := by
          unfold sweepOne
          rw [himage]
          dsimp only
          rw [hmove]
        rw [hone] at hrest
        omega
      | some q =>
        have hone : sweepOne move s p = { s with placements := s.placements ++ [q] } := by
          unfold sweepOne
          rw [himage]
          dsimp only
          rw [hmove]
        rw [hone] at h ⊢
        have hkept : (rest.foldl (sweepOne move)
            { s with placements := s.placements ++ [q] }).placements.length =
              (s.placements ++ [q]).length + rest.length := by
          rw [h, length_append, length_singleton]
          omega
        obtain ⟨moved, hmoved, heq⟩ := ih hkept
        refine ⟨q :: moved, List.Forall₂.cons ⟨image, hmove⟩ hmoved, ?_⟩
        rw [heq]
        simp only [append_assoc, singleton_append]

/-- A sweep that reports nothing moved each placement, and cleared the marks. -/
theorem removeWhere_still (h : s.removesWhere move reap = false) :
    ∃ moved, List.Forall₂ (fun p q => ∃ image, move p image = some q) s.placements moved ∧
      s.removeWhere move reap = { s with
        placements := moved
        images := s.images.mapValues fun _ image => { image with matched := false } } := by
  unfold removesWhere at h
  obtain ⟨hreap, hlength⟩ := Bool.or_eq_false_iff.mp h
  have hlength := not_not.mp (of_decide_eq_false hlength)
  have hkept : (s.placements.foldl (sweepOne move) { s with placements := [] }).placements.length =
      ([] : List (Placement F)).length + s.placements.length := by
    rw [hlength]
    exact (Nat.zero_add _).symm
  obtain ⟨moved, hmoved, heq⟩ := sweep_kept hkept
  rw [nil_append] at heq
  refine ⟨moved, hmoved, ?_⟩
  have hdoomed := List.isEmpty_iff.mp ((Bool.not_eq_false' ..).mp hreap)
  unfold removeWhere ImageStore.reap
  rw [hdoomed, heq]
  rfl

/-- Where each placement stays as it is, what the store shows does. -/
theorem visible_removeWhere (h : s.removesWhere move reap = false)
    (hsame : ∀ moved, List.Forall₂ (fun p q => ∃ image, move p image = some q) s.placements moved →
      (s.removeWhere move reap).placements = moved → moved = s.placements) :
    (s.removeWhere move reap).visible cell = s.visible cell := by
  obtain ⟨moved, hmoved, heq⟩ := removeWhere_still h
  have hplacements : moved = s.placements := hsame moved hmoved (by rw [heq])
  rw [heq, hplacements]
  refine visible_congr rfl rfl ?_
  rw [SortedMap.mapValues_mapValues]
  rfl

theorem visible_removeIf {remove : Placement F → Image → Bool} (h : s.removesIf remove reap = false) :
    (s.removeIf remove reap).visible cell = s.visible cell := by
  refine visible_removeWhere h fun moved hmoved _ => ?_
  have hsame : List.Forall₂ Eq s.placements moved := by
    refine hmoved.imp fun p q hq => ?_
    obtain ⟨_, hq⟩ := hq
    split at hq
    · cases hq
    · exact Option.some_inj.mp hq
  exact (forall₂_eq_eq_eq ▸ hsame : s.placements = moved).symm

end

/-! #### Deletes -/

theorem removeImage_still {key : ℕ} (h : s.removesImage key = false) : s.removeImage key = s := by
  have hlookup : s.images.lookup key = none := Option.not_isSome_iff_eq_none.mp (by
    rw [Bool.not_eq_true]
    exact h)
  unfold removeImage
  rw [hlookup]

theorem removeImages_still {keys : List ℕ} (h : s.removesAny keys = false) :
    s.removeImages keys = s := by
  induction keys with
  | nil => rfl
  | cons _ _ ih =>
    obtain ⟨hkey, hkeys⟩ := Bool.or_eq_false_iff.mp h
    have hone := removeImage_still hkey
    rw [hone] at hkeys
    unfold removeImages at ih ⊢
    rw [foldl_cons, hone]
    exact ih hkeys

theorem removeById_still {id : ℕ} (h : s.removesById id = false) : s.removeById id = s := by
  unfold removesById at h
  unfold removeById
  cases hkey : s.keyById id with
  | none => rfl
  | some =>
    rw [hkey] at h
    exact removeImage_still h

theorem visible_deleteImage {key : Option ℕ} {placement : ℕ} {reap : Reap}
    (h : s.deletesImage key placement reap = false) :
    (s.deleteImage key placement reap).visible cell = s.visible cell := by
  cases key with
  | none => rfl
  | some key =>
    unfold deletesImage at h
    unfold deleteImage
    dsimp only at h ⊢
    split at h
    · rename_i hidle
      rw [if_pos hidle]
      split
      · rename_i hreap
        rw [hreap] at h
        rw [removeImage_still h]
      · rfl
    · rename_i hidle
      rw [if_neg hidle]
      exact visible_removeIf h

theorem visible_deleteRange {first last : ℕ} {reap : Reap}
    (h : s.deletesRange first last reap = false) :
    (s.deleteRange first last reap).visible cell = s.visible cell := by
  unfold deletesRange at h
  unfold deleteRange
  dsimp only at h ⊢
  obtain ⟨hplacements, hidle⟩ := Bool.or_eq_false_iff.mp h
  split at hplacements
  · rename_i hreap
    rw [hreap] at hidle
    rw [if_pos hreap]
    rw [removeImages_still hidle] at hplacements ⊢
    exact visible_removeIf hplacements
  · rename_i hreap
    rw [if_neg hreap]
    exact visible_removeIf hplacements

theorem visible_delete {command : Command} {row col : ℤ} (h : s.deletes command row col = false) :
    (s.delete command row col).visible cell = s.visible cell := by
  unfold deletes at h
  unfold delete
  dsimp only at h ⊢
  generalize (Char.ofNat _).toLower = selector at h ⊢
  split at h
  · exact visible_removeIf h
  · exact visible_deleteImage h
  · exact visible_deleteImage h
  · exact visible_deleteRange h
  · exact visible_removeIf h
  · exact visible_removeIf h
  · exact visible_removeIf h
  · exact visible_removeIf h
  · exact visible_removeIf h
  · exact visible_removeIf h
  · first
    | rfl
    | split <;> first | contradiction | rfl

/-! #### Scrolls -/

variable [F32 F]

omit [F32 F] in
/-- A placement moved by a scroll ends where it starts only if it has no height. -/
theorem endRow_moved {p : Placement F} {delta row : ℤ} (hrow : p.row = saturatingAdd row delta)
    (hrows : p.effRows = 0) : p.endRow = p.row := by
  unfold Placement.endRow
  rw [hrows, hrow]
  unfold saturatingAdd
  omega

variable {scroll : Scroll}

/-- A region scroll that leaves a placement its line and its height leaves it as it was. -/
theorem scrollInRegion_still {p q : Placement F} {delta : ℤ}
    (h : scrollInRegion p scroll delta cell = some q) (hrow : q.row = p.row)
    (hrows : q.effRows = p.effRows) : q = p := by
  have hunless : ∀ {p q : Placement F}, (if p.endRow ≤ scroll.top ∨ scroll.stop - 1 < p.row then none
      else some p) = some q → q = p ∧ scroll.top < p.endRow ∧ p.row ≤ scroll.stop - 1 := by
    intro p q hq
    split at hq
    · cases hq
    · rename_i hinside
      exact ⟨(Option.some_inj.mp hq).symm, by omega⟩
  unfold scrollInRegion at h
  dsimp only at h
  split at h
  · exact (Option.some_inj.mp h).symm
  obtain ⟨moved, hmoved, hrest⟩ := Option.bind_eq_some_iff.mp h
  obtain ⟨hmoved, htop, hbottom⟩ := hunless hmoved
  rw [← hmoved] at htop hbottom
  have hstart : moved.row = saturatingAdd p.row delta := by rw [hmoved]
  have height : moved.effRows = p.effRows := by rw [hmoved]
  split at hrest
  · rename_i hover
    split at hrest
    · cases hrest
    -- Rows left at the top, so there are fewer of them.
    obtain ⟨rfl, _⟩ := hunless hrest
    dsimp only at hrows
    have hnone : moved.effRows = 0 := by omega
    have hend := endRow_moved hstart hnone
    omega
  · split at hrest
    · rename_i hover
      split at hrest
      · cases hrest
      · obtain ⟨rfl, _⟩ := hunless hrest
        dsimp only at hrows
        have hnone : moved.effRows = 0 := by omega
        have hend := endRow_moved hstart hnone
        omega
    · obtain ⟨rfl, _⟩ := hunless hrest
      rw [hmoved] at hrow ⊢
      dsimp only at hrow
      rw [hrow]

omit [F32 F] in
theorem scrollWhole_still {p q : Placement F} {scroll : Scroll} (h : scrollWhole scroll p = some q)
    (hrow : q.row = p.row) : q = p := by
  unfold scrollWhole at h
  split at h
  · exact (Option.some_inj.mp h).symm
  dsimp only at h
  split at h
  · cases h
  · cases h
    dsimp only at hrow
    rw [hrow]

theorem scroll_eq (s : ImageStore F) (scroll : Scroll) (cell : CellPixels) :
    s.scroll scroll cell = if !s.hasPlacements || scroll.lines = 0 then s
      else s.removeWhere (moves scroll cell) .unaddressable := by
  unfold ImageStore.scroll
  split
  · rfl
  split
  · rename_i hwhole
    unfold moves
    simp only [if_pos hwhole]
  · rename_i hwhole
    unfold moves
    simp only [if_neg hwhole]

/-- A scroll that leaves a placement equal, as far as that is compared, leaves it as it was. -/
theorem moves_still {p q : Placement F} {image : Image} (h : moves scroll cell p image = some q)
    (hsame : p.same q) : q = p := by
  unfold Placement.same at hsame
  simp only [Bool.and_eq_true, decide_eq_true_eq] at hsame
  have hrow : q.row = p.row := by
    obtain ⟨⟨⟨⟨⟨⟨⟨⟨⟨⟨⟨⟨⟨⟨_, hrow⟩, _⟩, _⟩, _⟩, _⟩, _⟩, _⟩, _⟩, _⟩, _⟩, _⟩, _⟩, _⟩, _⟩ := hsame
    exact hrow.symm
  have hrows : q.effRows = p.effRows := by
    obtain ⟨⟨⟨_, hrows⟩, _⟩, _⟩ := hsame
    exact hrows.symm
  unfold moves at h
  split at h
  · exact scrollWhole_still h hrow
  · split at h
    · exact (Option.some_inj.mp h).symm
    · exact scrollInRegion_still h hrow hrows

theorem eq_of_moves {before after : List (Placement F)}
    (hmoves : List.Forall₂ (fun p q => ∃ image, moves scroll cell p image = some q) before after)
    (hsame : before.isEqv after Placement.same) : after = before := by
  induction hmoves with
  | nil => rfl
  | cons hmove _ ih =>
    obtain ⟨_, hmove⟩ := hmove
    obtain ⟨hone, hrest⟩ := Bool.and_eq_true_iff.mp hsame
    rw [moves_still hmove hone, ih hrest]

theorem visible_scroll {cell' : CellPixels} (h : s.scrolls scroll cell = false) :
    (s.scroll scroll cell).visible cell' = s.visible cell' := by
  unfold scrolls at h
  rw [scroll_eq] at h ⊢
  split at h
  · rename_i hnothing
    rw [if_pos hnothing]
  rename_i hsomething
  rw [if_neg hsomething]
  obtain ⟨hremoved, hdiffers⟩ := Bool.or_eq_false_iff.mp h
  refine visible_removeWhere hremoved fun moved hmoved hplacements => ?_
  have hequal := (Bool.not_eq_false' ..).mp hdiffers
  rw [hplacements] at hequal
  exact eq_of_moves hmoved hequal

end ImageStore

/-! ### The engine -/

namespace KittyGraphics

variable {g g' : KittyGraphics F}

theorem visible_of_store (hstore : g'.store = g.store) (hcell : g'.cell = g.cell) :
    g'.visible = g.visible := by
  unfold visible
  rw [hstore, hcell]

theorem visible_modifyStore (f : ImageStore F → ImageStore F) :
    (g.modifyStore f).visible = (f g.store).visible g.cell := by
  unfold visible
  rw [store_modifyStore]
  unfold modifyStore
  rw [cell_modifyScreen]

theorem visible_reply (command : Command) (result : Except Failure Unit) :
    (g.reply command result).visible = g.visible :=
  visible_of_store (store_reply g command result).1 (store_reply g command result).2

theorem visible_beginLoad {start : Command} (h : g.touchesBegin start = 0) :
    (g.beginLoad start).visible = g.visible := by
  have hstored : (if (¬(start.id ≠ 0 ∧ start.number ≠ 0) ∧ start.action ≠ ascii 'q') ∧ start.id ≠ 0
      then g.modifyStore (·.removeById start.id) else g).visible = g.visible := by
    split
    · rename_i hnames
      have hstill : g.store.removesById start.id = false := by
        unfold touchesBegin at h
        dsimp only at h
        split at h
        · cases h
        · rename_i hremoves
          exact eq_false_of_ne_true fun hfound =>
            hremoves ⟨hnames.1.1, hnames.1.2, hnames.2, hfound⟩
      rw [visible_modifyStore, ImageStore.removeById_still hstill]
      rfl
    · rfl
  exact hstored

theorem visible_controlComplete (h : g.touchesControl = 0) :
    g.controlComplete.1.visible = g.visible := by
  unfold touchesControl at h
  unfold controlComplete
  cases hparse : Command.parse g.control with
  | none => rfl
  | some command =>
    rw [hparse] at h
    have hcontinues : ({ g with command := some command } : KittyGraphics F).continues command =
        g.continues command := rfl
    dsimp only at h ⊢
    rw [hcontinues]
    split at h
    · rename_i hcontinue
      rw [if_pos hcontinue]
      rfl
    rename_i hfirst
    rw [if_neg hfirst]
    split at h
    · rename_i haction
      rw [if_pos haction]
      exact visible_beginLoad (g := { g with command := some command }) h
    · rename_i haction
      rw [if_neg haction]
      split <;> rfl

variable {decoders : Decoders}

theorem visible_putControl {bytes : List UInt8} (h : g.touchesPutControl bytes = 0) :
    (g.putControl decoders bytes).visible = g.visible := by
  unfold touchesPutControl at h
  unfold putControl
  dsimp only at h ⊢
  split at h
  · rename_i hlong
    rw [if_pos hlong]
    rfl
  rename_i hlong
  rw [if_neg hlong]
  cases hpayload : bytes.dropWhile (· ≠ ascii ';') with
  | nil => rfl
  | cons =>
    rw [hpayload] at h
    dsimp only at h ⊢
    have hcompleted := visible_controlComplete h
    split <;> exact hcompleted

theorem visible_apcPut {bytes : List UInt8} (h : g.touchesPut bytes = 0) :
    (g.apcPut decoders bytes).visible = g.visible := by
  unfold touchesPut at h
  unfold apcPut
  dsimp only at h ⊢
  cases hsink : g.sink with
  | start =>
    cases bytes with
    | nil => rfl
    | cons first rest =>
      rw [hsink] at h
      dsimp only at h ⊢
      split at h
      · rename_i hfirst
        rw [if_pos hfirst]
        exact visible_putControl (g := { g with
          quietBytes := g.quietBytes + (first :: rest).length, sink := .control }) h
      · rename_i hfirst
        rw [if_neg hfirst]
        rfl
  | control =>
    rw [hsink] at h
    exact visible_putControl (g := { g with
      quietBytes := g.quietBytes + bytes.length, sink := .control }) h
  | payload feeding => cases feeding <;> rfl
  | idle | ignore => rfl

theorem visible_apcClose {cancelled : Bool} (h : g.sink = .control → g.touchesControl = 0) :
    (g.apcClose cancelled).1.visible = g.visible := by
  unfold apcClose
  dsimp only
  split
  · rename_i hsink
    exact visible_controlComplete (g := { g with
      quietBytes := if cancelled then g.quietBytes else g.quietBytes + 2, sink := .idle }) (h hsink)
  · rfl

variable [F32 F]

variable {command : Command} {cursor : Cursor}

theorem visible_loadComplete {load : Load} (h : g.touchesLoad decoders load = 0) :
    (g.loadComplete decoders load cursor).1.visible = g.visible := by
  unfold touchesLoad at h
  unfold loadComplete
  dsimp only at h ⊢
  split at h
  · rename_i hunnamed
    rw [if_pos hunnamed]
  rename_i hnamed
  rw [if_neg hnamed]
  split at h
  · rename_i hfailed
    rw [hfailed]
    exact visible_reply _ _
  rename_i received hreceived
  rw [hreceived]
  obtain ⟨_, _, job⟩ := received
  split at h
  · rename_i hquery
    dsimp only
    rw [if_pos hquery]
    cases job with
    | none => exact visible_reply _ _
    | some => rfl
  · split at h <;> cases h

theorem visible_chunkComplete (h : g.touchesChunk decoders command = 0) :
    (g.chunkComplete decoders command cursor).1.visible = g.visible := by
  unfold touchesChunk at h
  unfold chunkComplete
  cases hloader : g.loader with
  | none => rfl
  | some load =>
    rw [hloader] at h
    dsimp only at h ⊢
    split at h
    · rename_i hmore
      rw [if_pos hmore]
      rfl
    · rename_i hmore
      rw [if_neg hmore]
      exact visible_loadComplete (g := { g with loader := none }) h

theorem visible_place (h : g.touchesPlace command = 0) :
    (g.place command cursor).1.visible = g.visible := by
  unfold touchesPlace at h
  unfold place
  dsimp only at h ⊢
  split at h
  · rename_i hunnamed
    rw [if_pos hunnamed]
  rename_i hnamed
  rw [if_neg hnamed]
  split at h
  · rename_i hboth
    rw [if_pos hboth]
    exact visible_reply _ _
  rename_i hone
  rw [if_neg hone]
  split at h
  · rename_i hparent
    rw [if_pos hparent]
    exact visible_reply _ _
  rename_i hparent
  rw [if_neg hparent]
  generalize (if command.id ≠ 0 then g.store.keyById command.id
    else g.store.keyByNumber command.number) = key at h ⊢
  split at h
  · cases h
  rename_i hmissing
  have hnone : (key.bind fun key =>
      (g.store.images.lookup key).map fun image => (key, image.id)) = none := by
    cases key with
    | none => rfl
    | some =>
      have hlookup := Option.not_isSome_iff_eq_none.mp hmissing
      dsimp only [bind_some] at hlookup ⊢
      rw [hlookup]
      rfl
  rw [hnone]
  exact visible_reply _ _

theorem visible_execute {feeding : Bool}
    (h : g.touchesExecute decoders feeding command cursor = 0) :
    (g.execute decoders feeding command cursor).1.visible = g.visible := by
  unfold touchesExecute at h
  unfold execute
  split at h
  · rename_i hfeeding
    rw [if_pos hfeeding]
    exact visible_chunkComplete h
  rename_i hfeeding
  rw [if_neg hfeeding]
  split at h
  · rename_i hplace
    rw [if_pos hplace]
    exact visible_place h
  rename_i hplace
  rw [if_neg hplace]
  split at h
  · rename_i hdelete
    rw [if_pos hdelete, visible_modifyStore]
    split at h
    · cases h
    · rename_i hdeletes
      exact ImageStore.visible_delete (Bool.not_eq_true _ ▸ hdeletes)
  · rename_i hdelete
    rw [if_neg hdelete]
    split
    · exact visible_reply _ _
    · rfl

theorem visible_apcEnd {cancelled : Bool} (h : g.touchesEnd decoders cancelled cursor = 0) :
    (g.apcEnd decoders cancelled cursor).1.visible = g.visible := by
  unfold touchesEnd at h
  obtain ⟨hcontrol, hcommand⟩ := Nat.add_eq_zero_iff.mp h
  have hclosed : (g.apcClose cancelled).1.visible = g.visible := by
    refine visible_apcClose fun hsink => ?_
    rw [if_pos hsink] at hcontrol
    exact hcontrol
  unfold apcEnd
  dsimp only
  refine Eq.trans ?_ hclosed
  generalize g.apcClose cancelled = closed at hcommand ⊢
  obtain ⟨closed, sink, command⟩ := closed
  cases sink with
  | payload feeding =>
    dsimp only
    split
    · split <;> rfl
    rename_i hcomplete
    cases command with
    | none => rfl
    | some =>
      dsimp only at hcommand
      rw [if_neg hcomplete] at hcommand
      exact visible_execute hcommand
  | _ => rfl

omit [F32 F] in
theorem visible_finishJobs {jobs : List FinishedJob} (h : g.touchesFinish jobs = 0) :
    (g.finishJobs jobs).visible = g.visible := by
  induction jobs generalizing g with
  | nil => rfl
  | cons job _ ih =>
    obtain ⟨hjob, hjobs⟩ := Nat.add_eq_zero_iff.mp h
    have hgone : job.target.filter g.isLive = none := by
      cases htarget : job.target with
      | none => rfl
      | some =>
        rw [htarget] at hjob
        refine Option.filter_eq_none_iff.mpr fun other hother => ?_
        cases hother
        intro hlive
        rw [any_some, if_pos hlive] at hjob
        cases hjob
    have hone : (g.finishJob job).visible = g.visible := by
      unfold finishJob install
      rw [hgone]
      cases job.result <;> rfl
    exact (ih hjobs).trans hone

/-- What does not raise the flag leaves what can be seen. -/
theorem visible_apply {op : Op} (h : g.touches decoders op = 0) :
    (g.apply decoders op).visible = g.visible := by
  cases op with
  | apcPut => exact visible_apcPut h
  | apcEnd => exact visible_apcEnd h
  | finishJobs => exact visible_finishJobs h
  | popReply =>
    unfold apply popReply
    dsimp only
    split <;> rfl
  | setCell cell =>
    unfold touches at h
    unfold apply setCell
    dsimp only at h ⊢
    split at h
    · rename_i hcell
      rw [if_pos hcell]
    · cases h
  | scroll scroll =>
    unfold touches at h
    dsimp only at h
    split at h
    · cases h
    · rename_i hscrolls
      unfold apply KittyGraphics.scroll
      dsimp only
      rw [visible_modifyStore]
      exact ImageStore.visible_scroll (Bool.not_eq_true _ ▸ hscrolls)
  | clearScreen history =>
    unfold touches at h
    dsimp only at h
    split at h
    · cases h
    · rename_i hclears
      unfold apply clearScreen
      dsimp only
      rw [visible_modifyStore]
      exact ImageStore.visible_removeIf (Bool.not_eq_true _ ▸ hclears)
  | clearHistory =>
    unfold touches at h
    dsimp only at h
    split at h
    · cases h
    · rename_i hclears
      unfold apply KittyGraphics.clearHistory
      dsimp only
      rw [visible_modifyStore]
      exact ImageStore.visible_removeIf (Bool.not_eq_true _ ▸ hclears)
  | setAlternate alternate =>
    unfold touches at h
    unfold apply setAlternate
    dsimp only at h ⊢
    split at h
    · rename_i hactive
      rw [if_pos hactive]
    · cases h
  | reset =>
    unfold touches at h
    dsimp only at h
    split at h
    · rename_i hempty
      obtain ⟨hprimary, halternate⟩ := Bool.and_eq_true_iff.mp hempty
      have hstore : g.store.isEmpty := by
        unfold store screen
        split
        · exact halternate
        · exact hprimary
      exact (ImageStore.visible_empty hstore).symm
    · cases h
  | applyAnchors => cases h
  | _ => rfl

end KittyGraphics

/-! ### What the renderer is told -/

namespace Tracked

variable {t : Tracked F}

theorem touch_times (n : ℕ) (t : Tracked F) : touch^[n] t = { t with
    revision := t.revision + BitVec.ofNat 64 n, dirty := t.dirty || decide (0 < n) } := by
  induction n with
  | zero =>
    rw [Function.iterate_zero_apply, BitVec.add_zero, decide_eq_false (Nat.lt_irrefl 0),
      Bool.or_false]
  | succ n ih =>
    rw [Function.iterate_succ_apply', ih]
    unfold touch
    rw [BitVec.add_assoc, decide_eq_true n.succ_pos, Bool.or_true]
    congr 2
    exact (BitVec.ofNat_add n 1).symm

variable [F32 F] (decoders : Decoders)

variable (t : Tracked F)

theorem graphics_apply (op : Op) :
    (t.apply decoders op).graphics = t.graphics.apply decoders op := by
  unfold apply
  rw [touch_times]

theorem revision_step (event : Event) : (t.step decoders event).revision =
    t.revision + BitVec.ofNat 64 (t.raises decoders event) := by
  cases event with
  | op =>
    unfold step apply
    dsimp only
    rw [touch_times]
    rfl
  | takeDirty => exact (BitVec.add_zero _).symm

/-- The revision counts how often the flag was raised. -/
theorem revision_run (events : List Event) : (t.run decoders events).revision =
    t.revision + BitVec.ofNat 64 (t.touched decoders events) := by
  induction events generalizing t with
  | nil => exact (BitVec.add_zero _).symm
  | cons event _ ih =>
    have hrest := ih (t.step decoders event)
    rw [revision_step, BitVec.add_assoc, ← BitVec.ofNat_add] at hrest
    exact hrest

/-- While the flag is not raised nothing that can be seen changes. -/
theorem visible_run {t : Tracked F} {events : List Event} (h : t.touched decoders events = 0) :
    (t.run decoders events).graphics.visible = t.graphics.visible := by
  induction events generalizing t with
  | nil => rfl
  | cons event _ ih =>
    obtain ⟨hevent, hevents⟩ := Nat.add_eq_zero_iff.mp h
    refine (ih hevents).trans ?_
    cases event with
    | op =>
      rw [step, graphics_apply]
      exact KittyGraphics.visible_apply hevent
    | takeDirty => rfl

/-- Where the flag was raised, some operation raised it. -/
theorem raised_run {t : Tracked F} {events : List Event} (h : 0 < t.touched decoders events) :
    ∃ passed op rest, events = passed ++ .op op :: rest ∧
      ((t.run decoders passed).apply decoders op).dirty = true ∧
      0 < (t.run decoders passed).graphics.touches decoders op := by
  induction events generalizing t with
  | nil => cases h
  | cons event events ih =>
    by_cases hevent : 0 < t.raises decoders event
    · cases event with
      | op op =>
        refine ⟨[], op, events, rfl, ?_, hevent⟩
        unfold apply
        rw [touch_times]
        exact Bool.or_eq_true_iff.mpr (Or.inr (decide_eq_true hevent))
      | takeDirty => cases hevent
    · have hrest : 0 < (t.step decoders event).touched decoders events := by
        rw [touched] at h
        omega
      obtain ⟨passed, op, rest, heq, hraised⟩ := ih hrest
      refine ⟨event :: passed, op, rest, ?_, hraised⟩
      rw [heq]
      rfl

end Tracked

/-- Of any two points of a run between which something that can be seen changed, the flag was
raised in between, and the revisions differ unless it was raised a multiple of as many times as
there are revisions. -/
theorem changes_tracked [F32 F] (decoders : Decoders) (earlier later : List Event)
    (h : (Tracked.after decoders (earlier ++ later) : Tracked F).graphics.visible ≠
      (Tracked.after decoders earlier : Tracked F).graphics.visible) :
    (∃ passed op rest, later = passed ++ .op op :: rest ∧
      (Tracked.after decoders (earlier ++ (passed ++ [.op op])) : Tracked F).dirty = true ∧
      0 < (Tracked.after decoders (earlier ++ passed) : Tracked F).graphics.touches decoders op) ∧
    0 < (Tracked.after decoders earlier : Tracked F).touched decoders later ∧
    ((Tracked.after decoders (earlier ++ later) : Tracked F).revision =
        (Tracked.after decoders earlier : Tracked F).revision ↔
      2 ^ 64 ∣ (Tracked.after decoders earlier : Tracked F).touched decoders later) := by
  have happend : ∀ events, (Tracked.after decoders (earlier ++ events) : Tracked F) =
      (Tracked.after decoders earlier : Tracked F).run decoders events :=
    fun events => foldl_append ..
  generalize hbefore : (Tracked.after decoders earlier : Tracked F) = before at *
  rw [happend] at h ⊢
  have htouched : 0 < before.touched decoders later :=
    Nat.pos_of_ne_zero fun hnone => h (Tracked.visible_run decoders hnone)
  refine ⟨?_, htouched, ?_⟩
  · obtain ⟨passed, op, rest, heq, hdirty, hraised⟩ := Tracked.raised_run decoders htouched
    refine ⟨passed, op, rest, heq, ?_, ?_⟩
    · rw [happend]
      unfold Tracked.run at hdirty ⊢
      rw [foldl_append]
      exact hdirty
    · rw [happend]
      exact hraised
  · rw [Tracked.revision_run, BitVec.add_right_eq_self, ← BitVec.toNat_inj, BitVec.toNat_ofNat]
    exact (Nat.dvd_iff_mod_eq_zero ..).symm

/-- An operation that only raises the flag counts the revision up each time. -/
theorem Tracked.run_replicate [F32 F] (decoders : Decoders) {t : Tracked F} {op : Op}
    (hsame : t.graphics.apply decoders op = t.graphics) (htouches : t.graphics.touches decoders op = 1)
    (n : ℕ) : (t.run decoders (List.replicate n (.op op))).graphics = t.graphics ∧
      t.touched decoders (List.replicate n (.op op)) = n := by
  induction n generalizing t with
  | zero => exact ⟨rfl, rfl⟩
  | succ n ih =>
    have hgraphics : (t.step decoders (.op op)).graphics = t.graphics := by
      rw [step, graphics_apply, hsame]
    obtain ⟨hrest, hcount⟩ := ih (t := t.step decoders (.op op)) (by rw [hgraphics, hsame])
      (by rw [hgraphics, htouches])
    refine ⟨?_, ?_⟩
    · rw [← hgraphics, ← hrest]
      rfl
    · rw [replicate_succ, touched, hcount, raises, htouches]
      exact Nat.add_comm 1 n

/-- An image is shown, with its placement. -/
def showing : List Event := (whole "Ga=T,f=24,s=1,v=1,i=1;AAAA").map .op

/-- A resize that moves nothing. -/
def resizing : Event := .op (.applyAnchors fun _ _ => some (0, 0))

theorem showing_seen : ∀ events, (Tracked.after Decoders.uncompressed (showing ++ events) :
    Tracked Rat).graphics = (Tracked.after Decoders.uncompressed showing : Tracked Rat).graphics →
    (Tracked.after Decoders.uncompressed (showing ++ events) : Tracked Rat).graphics.visible ≠
      (Tracked.after Decoders.uncompressed [] : Tracked Rat).graphics.visible := by
  intro _ hsame hvisible
  rw [hsame] at hvisible
  have hlength := congrArg (fun visible => visible.placements.length) hvisible
  revert hlength
  decide +kernel

theorem changes_tracked_showing :
    (Tracked.after Decoders.uncompressed showing : Tracked Rat).revision ≠
      (Tracked.after Decoders.uncompressed [] : Tracked Rat).revision := by
  have htracked := changes_tracked (F := Rat) Decoders.uncompressed [] showing
    (showing_seen [] rfl)
  intro hsame
  exact absurd (htracked.2.2.mp hsame) (by decide +kernel)

/-- The revision comes round when the flag was raised as many times as there are revisions. -/
theorem revision_comes_round :
    (Tracked.after Decoders.uncompressed (showing ++ List.replicate (2 ^ 64 - 2) resizing) :
        Tracked Rat).graphics.visible ≠
      (Tracked.after Decoders.uncompressed [] : Tracked Rat).graphics.visible ∧
    (Tracked.after Decoders.uncompressed (showing ++ List.replicate (2 ^ 64 - 2) resizing) :
        Tracked Rat).revision =
      (Tracked.after Decoders.uncompressed [] : Tracked Rat).revision := by
  generalize hshown : (Tracked.after Decoders.uncompressed showing : Tracked Rat) = shown
  have hsame : shown.graphics.apply Decoders.uncompressed
      (.applyAnchors fun _ _ => some (0, 0)) = shown.graphics := by
    rw [← hshown]
    decide +kernel
  have hrevision : shown.revision = 2 := by
    rw [← hshown]
    decide +kernel
  have hrounds := Tracked.run_replicate Decoders.uncompressed hsame rfl (2 ^ 64 - 2)
  have hrun : (Tracked.after Decoders.uncompressed
      (showing ++ List.replicate (2 ^ 64 - 2) resizing) : Tracked Rat) =
      shown.run Decoders.uncompressed (List.replicate (2 ^ 64 - 2) resizing) := by
    rw [← hshown]
    exact foldl_append ..
  refine ⟨showing_seen _ ?_, ?_⟩
  · rw [hrun, hshown]
    exact hrounds.1
  · rw [hrun, Tracked.revision_run, hrevision]
    have hcount := hrounds.2
    unfold resizing
    rw [hcount]
    decide

end Vivido.Graphics
