import Vivido.Graphics.Sweeping

/-!
What a delete command removes. The selector of the command says which placements
go; an image goes with its last placement if it has no id, and under an uppercase
selector in any case. Every selector is an instance of a sweep, but for the images
that nothing shows.
-/

namespace Vivido.Graphics

open SortedMap List Option

variable {F : Type}

namespace ImageStore

/-! ### What is to be removed -/

/-- What a delete command names. -/
inductive Selector where
  | onScreen
  | byId (id placement : ℕ)
  | byNumber (number placement : ℕ)
  | byRange (first last : ℕ)
  | cell (x y : ℤ)
  | cellAtDepth (x y z : ℤ)
  | column (x : ℤ)
  | row (y : ℤ)
  | depth (z : ℤ)
  | nothing
  deriving DecidableEq, Repr

/-- The letter of a delete command; without one it is `a`. -/
def letterOf (command : Command) : UInt8 :=
  if command.delete = 0 then ascii 'a' else command.delete

/-- The selector of a delete command with the cursor at a line and column. Coordinates in the
command are one-based cells. -/
def selectorOf (command : Command) (row col : ℤ) : Selector :=
  let x : ℤ := command.x - 1
  let y : ℤ := command.y - 1
  match (Char.ofNat (letterOf command).toNat).toLower with
  | 'a' => .onScreen
  | 'i' => .byId command.id command.placement
  | 'n' => .byNumber command.number command.placement
  | 'r' => .byRange command.x command.y
  | 'p' => .cell x y
  | 'q' => .cellAtDepth x y command.z
  | 'x' => .column x
  | 'y' => .row y
  | 'z' => .depth command.z
  | 'c' => .cell col row
  | _ => .nothing

/-- The uppercase form, which also frees images that have an id. -/
def Uppercase (command : Command) : Prop := reapOf (letterOf command) = .matched

instance (command : Command) : Decidable (Uppercase command) :=
  inferInstanceAs (Decidable (_ = _))

/-- No image carries a number that was created later. -/
def Newest (s : ImageStore F) (number key : ℕ) : Prop :=
  ∀ entry ∈ s.images.entries, entry.2.number = number → entry.1 ≤ key

instance (s : ImageStore F) (number key : ℕ) : Decidable (s.Newest number key) :=
  inferInstanceAs (Decidable (∀ entry ∈ s.images.entries, _ → _))

/-- The image, of those a selector tells by what they are; zero is neither an id nor a number. -/
def Selector.Picks (s : ImageStore F) (key : ℕ) (image : Image) : Selector → Prop
  | .byId id _ => id ≠ 0 ∧ image.id = id
  | .byNumber number _ => number ≠ 0 ∧ image.number = number ∧ s.Newest number key
  | .byRange first last => image.id ≠ 0 ∧ first ≤ image.id ∧ image.id ≤ last
  | _ => False

instance (s : ImageStore F) (key : ℕ) (image : Image) (selector : Selector) :
    Decidable (selector.Picks s key image) :=
  match selector with
  | .byId _ _ => inferInstanceAs (Decidable (_ ∧ _))
  | .byNumber _ _ => inferInstanceAs (Decidable (_ ∧ _ ∧ _))
  | .byRange _ _ => inferInstanceAs (Decidable (_ ∧ _ ∧ _))
  | .onScreen | .cell _ _ | .cellAtDepth _ _ _ | .column _ | .row _ | .depth _ | .nothing =>
      inferInstanceAs (Decidable False)

/-- Whether a placement takes up cells of a column. -/
def InColumn (p : Placement F) (x : ℤ) : Prop := p.isVirtual = false ∧ p.col ≤ x ∧ x < p.endCol

def InRow (p : Placement F) (y : ℤ) : Prop := p.isVirtual = false ∧ p.row ≤ y ∧ y < p.endRow

instance (p : Placement F) (x : ℤ) : Decidable (InColumn p x) :=
  inferInstanceAs (Decidable (_ ∧ _))

instance (p : Placement F) (y : ℤ) : Decidable (InRow p y) := inferInstanceAs (Decidable (_ ∧ _))

def Selector.Names (s : ImageStore F) (p : Placement F) (image : Image) : Selector → Prop
  | .onScreen => p.isVirtual = false ∧ 0 < p.endRow
  | .byId id placement =>
      Selector.Picks s p.image image (.byId id placement) ∧ (placement = 0 ∨ p.id = placement)
  | .byNumber number placement =>
      Selector.Picks s p.image image (.byNumber number placement) ∧
        (placement = 0 ∨ p.id = placement)
  | .byRange first last => Selector.Picks s p.image image (.byRange first last)
  | .cell x y => InColumn p x ∧ InRow p y
  | .cellAtDepth x y z => InColumn p x ∧ InRow p y ∧ p.z = z
  | .column x => InColumn p x
  | .row y => InRow p y
  | .depth z => p.isVirtual = false ∧ p.z = z
  | .nothing => False

instance (s : ImageStore F) (p : Placement F) (image : Image) (selector : Selector) :
    Decidable (selector.Names s p image) :=
  match selector with
  | .onScreen | .cell _ _ | .depth _ => inferInstanceAs (Decidable (_ ∧ _))
  | .byId _ _ | .byNumber _ _ => inferInstanceAs (Decidable (_ ∧ (_ ∨ _)))
  | .byRange first last =>
      inferInstanceAs (Decidable (Selector.Picks s p.image image (.byRange first last)))
  | .cellAtDepth _ _ _ => inferInstanceAs (Decidable (_ ∧ _ ∧ _))
  | .column x => inferInstanceAs (Decidable (InColumn p x))
  | .row y => inferInstanceAs (Decidable (InRow p y))
  | .nothing => inferInstanceAs (Decidable False)

/-- Whether a selector names whole images, not single placements of them. -/
def Selector.whole : Selector → Bool
  | .byId _ placement | .byNumber _ placement => placement = 0
  | .byRange _ _ => true
  | _ => false

/-- The placements a delete command names. -/
def named (s : ImageStore F) (selector : Selector) (p : Placement F) : Bool :=
  (s.images.lookup p.image).any fun image => selector.Names s p image

/-- The images a delete command frees: those whose last placement it removes, if they have no id
or it is uppercase, and under uppercase the images it names that had none. -/
def frees (s : ImageStore F) (selector : Selector) (uppercase : Prop) [Decidable uppercase]
    (key : ℕ) (image : Image) : Bool :=
  let shown := s.placements.filter fun p => p.image = key
  if shown = [] then uppercase && selector.whole && selector.Picks s key image
  else shown.all (s.named selector) && (uppercase || image.id = 0)

/-- The store a delete command is to leave. -/
def deleted (s : ImageStore F) (command : Command) (row col : ℤ) : ImageStore F :=
  let selector := selectorOf command row col
  s.without (s.named selector) (s.frees selector (Uppercase command))

/-! ### Each way of removing -/

variable {s : ImageStore F}

theorem selector_named_iff {selector : Selector} {p : Placement F} {image : Image}
    (himage : s.images.lookup p.image = some image) :
    s.named selector p = true ↔ selector.Names s p image := by
  unfold named
  rw [himage, any_some, decide_eq_true_eq]

variable {unused : ℕ → Prop} {reap : Reap}

/-- A sweep for what a selector names is a delete, if no image it names was idle. -/
theorem removeIf_named (hs : s.Consistent) (hn : s.Named unused)
    {remove : Placement F → Image → Bool} (hremove : Steady remove)
    (hreap : reap = .matched ∨ reap = .matchedUnaddressable) (selector : Selector)
    (hnames : ∀ p image, s.images.lookup p.image = some image →
      (remove p image = true ↔ selector.Names s p image))
    (hidle : ∀ key image, s.images.lookup key = some image → image.refs = 0 →
      reap = .matched → selector.whole = true → ¬selector.Picks s key image) :
    s.removeIf remove reap = s.without (s.named selector) (s.frees selector (reap = .matched)) := by
  have hswept : ∀ p ∈ s.placements, s.swept remove p = s.named selector p := by
    intro p hp
    obtain ⟨image, himage⟩ := hs.shown p hp
    rw [Bool.eq_iff_iff, selector_named_iff himage, ← hnames p image himage]
    unfold swept
    rw [himage, all_some]
  rw [removeIf_eq hs hn hremove hreap]
  refine without_congr hswept fun key image himage => ?_
  have hall : (s.placements.filter fun p => p.image = key).all (s.swept remove) =
      (s.placements.filter fun p => p.image = key).all (s.named selector) := by
    rw [Bool.eq_iff_iff, List.all_eq_true, List.all_eq_true]
    exact forall₂_congr fun p hp => by rw [hswept p (List.mem_filter.mp hp).1]
  unfold frees
  dsimp only
  rw [hall]
  by_cases hshown : (s.placements.filter fun p => p.image = key) = []
  · have hrefs := (shown_eq_nil hs himage).mp hshown
    have hkept : (decide (reap = .matched) && selector.whole &&
        decide (selector.Picks s key image)) = false := by
      rw [Bool.eq_false_iff]
      intro h
      rw [Bool.and_eq_true, Bool.and_eq_true, decide_eq_true_eq, decide_eq_true_eq] at h
      exact hidle key image himage hrefs h.1.1 h.1.2 h.2
    rw [if_pos hshown, hshown, hkept]
    rfl
  · rw [if_neg hshown]
    simp [hshown]

theorem keyByNumber_eq_some {number key : ℕ} : s.keyByNumber number = some key ↔
    ∃ image, s.images.lookup key = some image ∧ image.number = number ∧ s.Newest number key := by
  have hfound : ∀ {key}, s.keyByNumber number = some key →
      ∃ image, s.images.lookup key = some image ∧ image.number = number ∧ s.Newest number key := by
    intro key hkey
    obtain ⟨⟨other, image⟩, hfind, rfl⟩ := Option.map_eq_some_iff.mp hkey
    obtain ⟨hnumber, later, earlier, hsplit, hlater⟩ := List.find?_eq_some_iff_append.mp hfind
    have hentries : s.images.entries = earlier.reverse ++ (other, image) :: later.reverse := by
      rw [← reverse_reverse s.images.entries, hsplit]
      simp
    refine ⟨image, mem_entries.mp ?_, of_decide_eq_true hnumber, ?_⟩
    · rw [hentries]
      exact mem_append_right _ mem_cons_self
    intro entry hentry hsame
    have hsorted := s.images.sorted
    rw [hentries, map_append, pairwise_append] at hsorted
    rw [hentries] at hentry
    rcases List.mem_append.mp hentry with hearlier | hentry
    · exact (hsorted.2.2 entry.1 (mem_map_of_mem hearlier) other
        (by rw [map_cons]; exact mem_cons_self)).le
    · rcases List.mem_cons.mp hentry with rfl | hentry
      · exact le_refl _
      · have hno := hlater entry (List.mem_reverse.mp hentry)
        simp [hsame] at hno
  refine ⟨hfound, ?_⟩
  rintro ⟨image, himage, hnumber, hnewest⟩
  cases hkey : s.keyByNumber number with
  | none =>
    have hnone := List.find?_eq_none.mp (Option.map_eq_none_iff.mp hkey) (key, image)
      (List.mem_reverse.mpr (mem_entries.mpr himage))
    exact absurd (decide_eq_true hnumber) hnone
  | some other =>
    obtain ⟨image', himage', hnumber', hnewest'⟩ := hfound hkey
    have hle := hnewest (other, image') (mem_entries.mpr himage') hnumber'
    have hle' := hnewest' (key, image) (mem_entries.mpr himage) hnumber
    exact congrArg some (le_antisymm hle hle')

theorem deleteImage_eq (hs : s.Consistent) (hn : s.Named unused) {found : Option ℕ}
    {placement : ℕ} (hreap : reap = .matched ∨ reap = .matchedUnaddressable) {selector : Selector}
    (hfound : ∀ key, found = some key → ∃ image, s.images.lookup key = some image)
    (hpicks : ∀ key image, s.images.lookup key = some image →
      (selector.Picks s key image ↔ found = some key))
    (hnames : ∀ p image, s.images.lookup p.image = some image → (selector.Names s p image ↔
        selector.Picks s p.image image ∧ (placement = 0 ∨ p.id = placement)))
    (hwhole : selector.whole = decide (placement = 0)) : s.deleteImage found placement reap =
      s.without (s.named selector) (s.frees selector (reap = .matched)) := by
  have hunnamed : ∀ p ∈ s.placements, found ≠ some p.image → s.named selector p = false := by
    intro p hp hother
    obtain ⟨image, himage⟩ := hs.shown p hp
    rw [Bool.eq_false_iff, Ne, selector_named_iff himage, hnames p image himage, hpicks _ image himage]
    exact fun h => hother h.1
  unfold deleteImage
  cases found with
  | none =>
    symm
    refine without_self hs hn (fun p hp => hunnamed p hp nofun) fun key image himage => ?_
    unfold frees
    dsimp only
    split
    · have hpick : ¬selector.Picks s key image := fun h => nomatch (hpicks key image himage).mp h
      simp [hpick]
    · rename_i hshown
      obtain ⟨p, hp⟩ := exists_mem_of_ne_nil _ hshown
      have hno := hunnamed p (List.mem_filter.mp hp).1 nofun
      have hall : ((s.placements.filter fun p => p.image = key).all (s.named selector)) = false :=
        List.all_eq_false.mpr ⟨p, hp, by simp [hno]⟩
      rw [hall, Bool.false_and]
  | some key =>
    obtain ⟨image, himage⟩ := hfound key rfl
    dsimp only
    rw [himage, any_some]
    by_cases hidle : image.refs = 0 ∧ placement = 0
    · have hshown := (shown_eq_nil hs himage).mpr hidle.1
      have hnone : ∀ p ∈ s.placements, s.named selector p = false := by
        intro p hp
        refine hunnamed p hp fun heq => ?_
        have hmem : p ∈ s.placements.filter fun p => p.image = key :=
          List.mem_filter.mpr ⟨hp, decide_eq_true (Option.some_inj.mp heq).symm⟩
        rw [hshown] at hmem
        cases hmem
      have hfrees : ∀ other image', s.images.lookup other = some image' →
          s.frees selector (reap = .matched) other image' =
            decide (reap = .matched ∧ other = key) := by
        intro other image' himage'
        unfold frees
        dsimp only
        split
        · have hpick : selector.Picks s other image' ↔ other = key :=
            (hpicks other image' himage').trans (Option.some_inj.trans eq_comm)
          rw [Bool.eq_iff_iff]
          simp [hwhole, hidle.2, hpick]
        · rename_i hother
          obtain ⟨p, hp⟩ := exists_mem_of_ne_nil _ hother
          have hno := hnone p (List.mem_filter.mp hp).1
          have hall : ((s.placements.filter fun p => p.image = other).all (s.named selector)) =
              false := List.all_eq_false.mpr ⟨p, hp, by simp [hno]⟩
          have hne : other ≠ key := fun heq => hother (heq ▸ hshown)
          rw [hall, Bool.false_and]
          simp [hne]
      rw [if_pos ⟨decide_eq_true hidle.1, hidle.2⟩]
      split
      · rename_i hmatched
        refine (removeImages_eq hs hn [key] fun other hother image' himage' => ?_).trans
          (without_congr (fun p hp => (hnone p hp).symm) fun other image' himage' => ?_)
        · cases List.mem_singleton.mp hother
          cases himage.symm.trans himage'
          exact hidle.1
        · rw [hfrees other image' himage']
          simp [hmatched]
      · rename_i hmatched
        refine (without_self hs hn hnone fun other image' himage' => ?_).symm
        rw [hfrees other image' himage']
        simp [hmatched]
    · rw [if_neg fun h => hidle ⟨of_decide_eq_true h.1, h.2⟩]
      refine removeIf_named hs hn (fun _ _ => rfl) hreap selector (fun p image' himage' => ?_)
        fun other image' himage' hrefs _ hwhole' hpick => ?_
      · rw [hnames p image' himage', hpicks _ image' himage', some_inj,
          @eq_comm _ key p.image, Bool.and_eq_true, Bool.or_eq_true, decide_eq_true_eq,
          decide_eq_true_eq, decide_eq_true_eq]
      · have heq := (hpicks other image' himage').mp hpick
        cases heq
        cases himage.symm.trans himage'
        rw [hwhole, decide_eq_true_eq] at hwhole'
        exact hidle ⟨hrefs, hwhole'⟩

theorem mem_idle {first last key : ℕ} :
    key ∈ (s.images.entries.filter fun entry => entry.2.refs = 0 &&
      (entry.2.id ≠ 0 && first ≤ entry.2.id && entry.2.id ≤ last)).map Prod.fst ↔
      ∃ image, s.images.lookup key = some image ∧ image.refs = 0 ∧
        Selector.Picks s key image (.byRange first last) := by
  constructor
  · intro hmem
    obtain ⟨⟨_, image⟩, hentry, rfl⟩ := List.mem_map.mp hmem
    obtain ⟨hentry, hidle⟩ := List.mem_filter.mp hentry
    simp only [ne_eq, Bool.and_eq_true, decide_eq_true_eq, and_assoc] at hidle
    exact ⟨image, mem_entries.mp hentry, hidle.1, hidle.2⟩
  · rintro ⟨image, himage, hrefs, hne, hfirst, hlast⟩
    refine List.mem_map.mpr
      ⟨(key, image), List.mem_filter.mpr ⟨mem_entries.mpr himage, ?_⟩, rfl⟩
    simp [hrefs, hne, hfirst, hlast]

theorem range_names {first last : ℕ} (p : Placement F) (image : Image) :
    (image.id ≠ 0 && first ≤ image.id && image.id ≤ last) = true ↔
      Selector.Names s p image (.byRange first last) := by
  simp only [ne_eq, Bool.and_eq_true, decide_eq_true_eq, and_assoc]
  exact Iff.rfl

/-- Deleting by a range of ids. The uppercase form first frees the images that nothing shows. -/
theorem deleteRange_eq (hs : s.Consistent) (hn : s.Named unused) (first last : ℕ)
    (hreap : reap = .matched ∨ reap = .matchedUnaddressable) :
    s.deleteRange first last reap = s.without (s.named (.byRange first last))
      (s.frees (.byRange first last) (reap = .matched)) := by
  unfold deleteRange
  dsimp only
  split
  · rename_i hmatched
    generalize hidle : (s.images.entries.filter fun entry => entry.2.refs = 0 &&
      (entry.2.id ≠ 0 && first ≤ entry.2.id && entry.2.id ≤ last)).map Prod.fst = idle
    have hidleImage : ∀ key, key ∈ idle ↔ ∃ image, s.images.lookup key = some image ∧
        image.refs = 0 ∧ Selector.Picks s key image (.byRange first last) :=
      fun key => hidle ▸ mem_idle
    have hrefs : ∀ key ∈ idle, ∀ image, s.images.lookup key = some image → image.refs = 0 := by
      intro key hkey image himage
      obtain ⟨other, hother, hrefs, -⟩ := (hidleImage key).mp hkey
      cases himage.symm.trans hother
      exact hrefs
    obtain ⟨hplacements, hlastKey, hclock⟩ := idle_removeImages hrefs
    have hlookup := lookup_removeImages s idle
    have hs' := hs.removeImages idle
    have hn' := hn.removeImages idle
    generalize s.removeImages idle = removed at hplacements hlastKey hclock hlookup hs' hn'
    -- No placement shows an image that went.
    have hnamed : ∀ p ∈ s.placements, removed.named (.byRange first last) p =
        s.named (.byRange first last) p := by
      intro p hp
      obtain ⟨image, himage⟩ := hs.shown p hp
      have hnot : p.image ∉ idle := by
        intro hmem
        have hnil := (shown_eq_nil hs himage).mpr (hrefs _ hmem image himage)
        have hshown : p ∈ s.placements.filter fun other => other.image = p.image :=
          List.mem_filter.mpr ⟨hp, decide_eq_true rfl⟩
        rw [hnil] at hshown
        cases hshown
      unfold named
      rw [hlookup, if_neg hnot]
      rfl
    have hfrees : ∀ key image, removed.frees (.byRange first last) (reap = .matched) key image =
        s.frees (.byRange first last) (reap = .matched) key image := by
      intro key image
      unfold frees
      rw [hplacements]
      have hall : (s.placements.filter fun p => p.image = key).all
          (removed.named (.byRange first last)) =
          (s.placements.filter fun p => p.image = key).all (s.named (.byRange first last)) := by
        rw [Bool.eq_iff_iff, List.all_eq_true, List.all_eq_true]
        exact forall₂_congr fun p hp => by rw [hnamed p (List.mem_filter.mp hp).1]
      dsimp only
      rw [hall]
      rfl
    have hswept := removeIf_named hs' hn' (fun _ _ => rfl) hreap (.byRange first last)
      (fun p image _ => range_names p image) fun key image himage hzero _ _ hpick => by
        rw [hlookup] at himage
        split at himage
        · cases himage
        · rename_i hnot
          exact hnot ((hidleImage key).mpr ⟨image, himage, hzero, hpick⟩)
    rw [hswept]
    refine eq_without hs hn (hswept ▸ hs'.removeIf _ _) (hswept ▸ hn'.removeIf _ _)
      (fun key _ => (removed.without (removed.named (.byRange first last))
        (removed.frees (.byRange first last) (reap = .matched))).placements.countP
          fun p => p.image = key) ?_ (fun key => ?_) hlastKey hclock
    · unfold without
      dsimp only
      rw [hplacements]
      exact filter_congr fun p hp => by rw [hnamed p hp]
    · unfold without
      dsimp only
      rw [lookup_mapValues, lookup_filter, hlookup]
      cases himage : s.images.lookup key with
      | none => rw [ite_self]; rfl
      | some image =>
        split
        · rename_i hkey
          obtain ⟨_, hother, hzero, hpick⟩ := (hidleImage key).mp hkey
          cases himage.symm.trans hother
          have hfreed : s.frees (.byRange first last) (reap = .matched) key image = true := by
            unfold frees
            dsimp only
            rw [if_pos ((shown_eq_nil hs himage).mpr hzero)]
            simp [hmatched, hpick, Selector.whole]
          rw [filter_some, hfreed]
          rfl
        · rw [filter_some, filter_some, hfrees]
  · rename_i hmatched
    exact removeIf_named hs hn (fun _ _ => rfl) hreap (.byRange first last)
      (fun p image _ => range_names p image) fun _ _ _ _ heq => (hmatched heq).elim

/-! ### Every selector -/

theorem reapOf_cases (letter : UInt8) :
    reapOf letter = .matched ∨ reapOf letter = .matchedUnaddressable := by
  unfold reapOf
  split
  · exact Or.inl rfl
  · exact Or.inr rfl

theorem inColumn_iff {p : Placement F} {x : ℤ} :
    (!p.isVirtual && p.inCols x) = true ↔ InColumn p x := by
  unfold Placement.inCols InColumn
  simp

theorem inRow_iff {p : Placement F} {y : ℤ} : (!p.isVirtual && p.inRows y) = true ↔ InRow p y := by
  unfold Placement.inRows InRow
  simp

theorem inCell_iff {p : Placement F} {x y : ℤ} :
    (!p.isVirtual && p.inCols x && p.inRows y) = true ↔ InColumn p x ∧ InRow p y := by
  rw [← inColumn_iff, ← inRow_iff]
  cases p.isVirtual <;> simp

/-- The number zero, that of images without a number, is taken for theirs. -/
def Astray (s : ImageStore F) (command : Command) (row col : ℤ) : Prop :=
  selectorOf command row col = .byNumber 0 command.placement ∧
    ∃ key image, s.images.lookup key = some image ∧ image.number = 0 ∧ s.Newest 0 key ∧
      ((∃ p ∈ s.placements, p.image = key ∧
          (command.placement = 0 ∨ p.id = command.placement)) ∨
        Uppercase command ∧ command.placement = 0)

section Selectors

variable {unused : ℕ → Prop}

section

variable (hs : s.Consistent) (hn : s.Named unused)
include hs hn

theorem removeIf_placed
    {remove : Placement F → Bool} (command : Command) {selector : Selector}
    (hwhole : selector.whole = false)
    (hnames : ∀ p image, remove p = true ↔ selector.Names s p image) :
    s.removeIf (fun p _ => remove p) (reapOf (letterOf command)) =
      s.without (s.named selector) (s.frees selector (Uppercase command)) :=
  removeIf_named hs hn (fun _ _ => rfl) (reapOf_cases _) selector
    (fun p image _ => hnames p image) fun _ _ _ _ _ hsome =>
      absurd hsome (by rw [hwhole]; exact Bool.false_ne_true)

theorem deleteImage_byId (command : Command) :
    s.deleteImage (s.keyById command.id) command.placement (reapOf (letterOf command)) =
      s.without (s.named (.byId command.id command.placement))
        (s.frees (.byId command.id command.placement) (Uppercase command)) := by
  refine deleteImage_eq hs hn (reapOf_cases _) (fun key hkey => ?_) (fun key image himage => ?_)
    (fun _ _ _ => Iff.rfl) rfl
  · obtain ⟨-, image, himage, -⟩ := hs.named _ key hkey
    exact ⟨image, himage⟩
  · refine Iff.trans ?_ (lookup_ids_iff hs hn).symm
    constructor
    · exact fun h => ⟨h.1, image, himage, h.2⟩
    · rintro ⟨hne, _, hother, hid⟩
      cases himage.symm.trans hother
      exact ⟨hne, hid⟩

theorem deleteImage_byNumber (command : Command) (hnumber : command.number ≠ 0) :
    s.deleteImage (s.keyByNumber command.number) command.placement (reapOf (letterOf command)) =
      s.without (s.named (.byNumber command.number command.placement))
        (s.frees (.byNumber command.number command.placement) (Uppercase command)) := by
  refine deleteImage_eq hs hn (reapOf_cases _) (fun key hkey => ?_) (fun key image himage => ?_)
    (fun _ _ _ => Iff.rfl) rfl
  · obtain ⟨image, himage, -⟩ := keyByNumber_eq_some.mp hkey
    exact ⟨image, himage⟩
  · rw [keyByNumber_eq_some]
    constructor
    · exact fun h => ⟨image, himage, h.2.1, h.2.2⟩
    · rintro ⟨_, hother, hsame, hnewest⟩
      cases himage.symm.trans hother
      exact ⟨hnumber, hsame, hnewest⟩

theorem deleted_nothing (selector : Selector)
    (uppercase : Prop) [Decidable uppercase] (hpicks : ∀ key image, ¬selector.Picks s key image)
    (hnames : ∀ p image, ¬selector.Names s p image) :
    s.without (s.named selector) (s.frees selector uppercase) = s := by
  have hnone : ∀ p ∈ s.placements, s.named selector p = false := by
    intro p hp
    obtain ⟨image, himage⟩ := hs.shown p hp
    rw [Bool.eq_false_iff, Ne, selector_named_iff himage]
    exact hnames p image
  refine without_self hs hn hnone fun key image _ => ?_
  unfold frees
  dsimp only
  split
  · simp [hpicks key image]
  · rename_i hshown
    obtain ⟨p, hp⟩ := exists_mem_of_ne_nil _ hshown
    have hall : ((s.placements.filter fun p => p.image = key).all (s.named selector)) = false :=
      List.all_eq_false.mpr ⟨p, hp, by simp [hnone p (List.mem_filter.mp hp).1]⟩
    rw [hall, Bool.false_and]

/-- A delete by no number acts on an image after all, if there is one that has none. -/
theorem deleteImage_astray (placement : ℕ) {reap : Reap}
    (hreap : reap = .matched ∨ reap = .matchedUnaddressable) :
    s.deleteImage (s.keyByNumber 0) placement reap = s ↔
      ¬∃ key image, s.images.lookup key = some image ∧ image.number = 0 ∧ s.Newest 0 key ∧
        ((∃ p ∈ s.placements, p.image = key ∧ (placement = 0 ∨ p.id = placement)) ∨
          reap = .matched ∧ placement = 0) := by
  cases hkey : s.keyByNumber 0 with
  | none =>
    refine iff_of_true rfl ?_
    rintro ⟨key, image, himage, hnumber, hnewest, -⟩
    rw [keyByNumber_eq_some.mpr ⟨image, himage, hnumber, hnewest⟩] at hkey
    cases hkey
  | some key =>
    obtain ⟨image, himage, hnumber, hnewest⟩ := keyByNumber_eq_some.mp hkey
    have hunique : ∀ {other image'}, s.images.lookup other = some image' → image'.number = 0 →
        s.Newest 0 other → other = key := by
      intro other image' himage' hnumber' hnewest'
      have hother := keyByNumber_eq_some.mpr ⟨image', himage', hnumber', hnewest'⟩
      exact Option.some_inj.mp (hother.symm.trans hkey)
    have hcondition : (∃ key image, s.images.lookup key = some image ∧ image.number = 0 ∧
        s.Newest 0 key ∧ ((∃ p ∈ s.placements, p.image = key ∧
          (placement = 0 ∨ p.id = placement)) ∨ reap = .matched ∧ placement = 0)) ↔
        (∃ p ∈ s.placements, p.image = key ∧ (placement = 0 ∨ p.id = placement)) ∨
          reap = .matched ∧ placement = 0 := by
      constructor
      · rintro ⟨other, image', himage', hnumber', hnewest', h⟩
        exact hunique himage' hnumber' hnewest' ▸ h
      · exact fun h => ⟨key, image, himage, hnumber, hnewest, h⟩
    rw [hcondition]
    unfold deleteImage
    dsimp only
    rw [himage, any_some]
    by_cases hidle : image.refs = 0 ∧ placement = 0
    · have hnone : ¬∃ p ∈ s.placements, p.image = key ∧ (placement = 0 ∨ p.id = placement) := by
        rintro ⟨p, hp, heq, -⟩
        have hmem : p ∈ s.placements.filter fun p => p.image = key :=
          List.mem_filter.mpr ⟨hp, decide_eq_true heq⟩
        rw [(shown_eq_nil hs himage).mpr hidle.1] at hmem
        cases hmem
      rw [if_pos ⟨decide_eq_true hidle.1, hidle.2⟩]
      split
      · rename_i hmatched
        refine iff_of_false (fun heq => ?_) fun h => h (Or.inr ⟨hmatched, hidle.2⟩)
        have hgone := lookup_removeImage s key key
        rw [heq, himage, if_pos rfl] at hgone
        cases hgone
      · rename_i hmatched
        exact iff_of_true rfl fun h => h.elim hnone fun h => hmatched h.1
    · rw [if_neg fun h => hidle ⟨of_decide_eq_true h.1, h.2⟩]
      have hsteady : Steady fun (p : Placement F) _ =>
          p.image = key && (placement = 0 || p.id = placement) := fun _ _ => rfl
      have hswept : ∀ p ∈ s.placements,
          (s.swept (fun p _ => p.image = key && (placement = 0 || p.id = placement)) p = true ↔
            p.image = key ∧ (placement = 0 ∨ p.id = placement)) := by
        intro p hp
        obtain ⟨other, hother⟩ := hs.shown p hp
        unfold swept
        rw [hother, all_some]
        simp
      by_cases hsome : ∃ p ∈ s.placements, p.image = key ∧ (placement = 0 ∨ p.id = placement)
      · refine iff_of_false (fun heq => ?_) fun h => h (Or.inl hsome)
        obtain ⟨p, hp, hgone⟩ := hsome
        have hplacements := (removeIf_parts hn.unmarked reap hsteady).1
        rw [heq] at hplacements
        have hkept := (List.filter_eq_self.mp hplacements.symm) p hp
        rw [(hswept p hp).mpr hgone] at hkept
        cases hkept
      · have hunswept : ∀ p ∈ s.placements,
            s.swept (fun p _ => p.image = key && (placement = 0 || p.id = placement)) p = false :=
          fun p hp => Bool.eq_false_iff.mpr fun h => hsome ⟨p, hp, (hswept p hp).mp h⟩
        have hplacement : placement ≠ 0 := by
          intro hzero
          refine hidle ⟨?_, hzero⟩
          by_contra hrefs
          obtain ⟨p, hp⟩ := exists_mem_of_ne_nil _
            (fun hnil => hrefs ((shown_eq_nil hs himage).mp hnil))
          obtain ⟨hp, heq⟩ := List.mem_filter.mp hp
          exact hsome ⟨p, hp, of_decide_eq_true heq, Or.inl hzero⟩
        refine iff_of_true ?_ fun h => h.elim hsome fun h => hplacement h.2
        rw [removeIf_eq hs hn (fun _ _ => rfl) hreap]
        refine without_self hs hn hunswept fun other image' _ => ?_
        dsimp only
        by_cases hshown : (s.placements.filter fun p => p.image = other) = []
        · simp [hshown]
        · obtain ⟨p, hp⟩ := exists_mem_of_ne_nil _ hshown
          have hall : (s.placements.filter fun p => p.image = other).all (s.swept fun p _ =>
              p.image = key && (placement = 0 || p.id = placement)) = false :=
            List.all_eq_false.mpr ⟨p, hp, by simp [hunswept p (List.mem_filter.mp hp).1]⟩
          rw [hall, Bool.and_false, Bool.false_and]

/-- A delete removes what its selector names, and nothing else, unless it goes astray. -/
theorem delete_eq_iff (command : Command) (row col : ℤ) :
    s.delete command row col = s.deleted command row col ↔ ¬s.Astray command row col := by
  unfold Astray deleted selectorOf delete
  dsimp only
  rw [show (if command.delete = 0 then ascii 'a' else command.delete) = letterOf command from rfl]
  generalize (Char.ofNat (letterOf command).toNat).toLower = letter
  split
  · refine iff_of_true ?_ fun h => Selector.noConfusion h.1
    exact removeIf_placed hs hn command rfl fun p image => by simp [Selector.Names]
  · exact iff_of_true (deleteImage_byId hs hn command) fun h => Selector.noConfusion h.1
  · by_cases hnumber : command.number = 0
    · rw [hnumber]
      have hnothing := deleted_nothing hs hn (.byNumber 0 command.placement)
        (Uppercase command) (fun key image h => h.1 rfl) fun p image h => h.1.1 rfl
      refine (Eq.congr_right hnothing).trans ?_
      refine (deleteImage_astray hs hn command.placement (reapOf_cases _)).trans ?_
      exact not_congr (and_iff_right rfl).symm
    · refine iff_of_true (deleteImage_byNumber hs hn command hnumber) fun h => ?_
      exact hnumber (Selector.byNumber.inj h.1).1
  · exact iff_of_true (deleteRange_eq hs hn _ _ (reapOf_cases _)) fun h => Selector.noConfusion h.1
  · refine iff_of_true ?_ fun h => Selector.noConfusion h.1
    exact removeIf_placed hs hn command rfl fun p image => inCell_iff
  · refine iff_of_true ?_ fun h => Selector.noConfusion h.1
    refine removeIf_placed hs hn command rfl fun p image => ?_
    simp only [Selector.Names, ← and_assoc, ← inCell_iff, Bool.and_eq_true, decide_eq_true_eq]
    tauto
  · refine iff_of_true ?_ fun h => Selector.noConfusion h.1
    exact removeIf_placed hs hn command rfl fun p image => inColumn_iff
  · refine iff_of_true ?_ fun h => Selector.noConfusion h.1
    exact removeIf_placed hs hn command rfl fun p image => inRow_iff
  · refine iff_of_true ?_ fun h => Selector.noConfusion h.1
    exact removeIf_placed hs hn command rfl fun p image => by simp [Selector.Names]
  · refine iff_of_true ?_ fun h => Selector.noConfusion h.1
    exact removeIf_placed hs hn command rfl fun p image => inCell_iff
  · have hnothing := deleted_nothing hs hn .nothing (Uppercase command) (fun _ _ => id)
      fun _ _ => id
    first
    | exact iff_of_true hnothing.symm fun h => Selector.noConfusion h.1
    | split <;> first | contradiction | exact iff_of_true hnothing.symm fun h => Selector.noConfusion h.1

end

end Selectors

end ImageStore

namespace KittyGraphics

variable [F32 F]

/-- Whatever happened to a terminal, a delete removes the placements its selector names and frees
the images it is to free, and nothing else, unless it names an image by no number. -/
theorem delete_exact_iff {decoders : Decoders} (hdec : decoders.Limited) (ops : List Op)
    (screen : Bool) (command : Command) (row col : ℤ) :
    ((({} : KittyGraphics F).applyAll decoders ops).screen screen).delete command row col =
        ((({} : KittyGraphics F).applyAll decoders ops).screen screen).deleted command row col ↔
      ¬((({} : KittyGraphics F).applyAll decoders ops).screen screen).Astray command row col := by
  have hvalid := valid_applyAll hdec (valid_fresh (F := F)) ops
  have hnamed := named_applyAll hdec named_fresh (valid_fresh (F := F)) ops
  exact ImageStore.delete_eq_iff (hvalid.sound screen).consistent (hnamed screen) command row col

/-- An image with an id and one without, each shown once. -/
def twoImages : KittyGraphics Rat :=
  ({} : KittyGraphics Rat).applyAll Decoders.uncompressed
    (whole "Ga=T,f=24,s=1,v=1,i=1;AAAA" ++ whole "Ga=T,f=24,s=1,v=1;AAAA")

theorem delete_exact_by_id : (twoImages.screen false).delete { delete := ascii 'I', id := 1 } 0 0 =
        (twoImages.screen false).deleted { delete := ascii 'I', id := 1 } 0 0 ∧
      ((twoImages.screen false).deleted { delete := ascii 'I', id := 1 } 0 0).images.size = 1 :=
  ⟨(delete_exact_iff limited_uncompressed _ false { delete := ascii 'I', id := 1 } 0 0).mpr
    (fun h => nomatch h.1), by decide +kernel⟩

/-- A delete by number that gives none removes the image that has none. -/
theorem delete_by_no_number : (twoImages.screen false).delete { delete := ascii 'n' } 0 0 ≠
      (twoImages.screen false).deleted { delete := ascii 'n' } 0 0 := by
  decide +kernel

end KittyGraphics

end Vivido.Graphics
