import PackPlan.AssetPath
import PackPlan.Proofs.Files.Places
import PackPlan.Proofs.Text.Casing

/-!
# Normal forms of paths

A normal form is lower case with forward slashes, and its components come down to themselves:
steps up, and names after them. Normalising it once more does nothing but trim it. Blanks are
trimmed before the root is dropped and components are left out, so that a normal form may begin or
end in a blank that stood beside a slash; it is left alone exactly if it does not.

## Main definitions

* `AssetPath.IsReduced` — components that come down to themselves
* `AssetPath.IsNormal` — text that is the normal form of some path

## Main results

* `Text.trim_eq_self_iff` — which text is trimmed to itself
* `Text.splitAt_join` — pieces that are joined are cut apart again
* `AssetPath.components_join` — components that come down to themselves
* `AssetPath.isNormal_normalizeChars` — normalising yields normal forms
* `AssetPath.normalize_normalize_iff` — which normal forms are normalised to themselves
-/

namespace PackPlan

/-! ### Trimming and joining -/

namespace Text

variable {drop : Char → Bool} {sep : Char} {s : List Char} {pieces : List (List Char)}

theorem dropWhile_eq_self_iff_head? :
    s.dropWhile drop = s ↔ ∀ c ∈ s.head?, drop c = false := by
  cases s with
  | nil => simp
  | cons c s =>
    rw [List.dropWhile_eq_self_iff]
    simp

theorem trimBy_sublist (drop : Char → Bool) (s : List Char) : (trimBy drop s).Sublist s := by
  have back := (List.dropWhile_sublist drop (l := (s.dropWhile drop).reverse)).reverse
  rw [List.reverse_reverse] at back
  exact back.trans (List.dropWhile_sublist drop)

theorem trim_sublist (s : List Char) : (trim s).Sublist s := trimBy_sublist isBlank s

/-- Text is trimmed to itself if neither its first nor its last character is trimmed away. -/
theorem trimBy_eq_self_iff : trimBy drop s = s ↔
    (∀ c ∈ s.head?, drop c = false) ∧ ∀ c ∈ s.getLast?, drop c = false := by
  rw [← List.head?_reverse, ← dropWhile_eq_self_iff_head?, ← dropWhile_eq_self_iff_head?]
  constructor
  · intro whole
    -- nothing is lost at the front, or the text would be shorter
    have front : s.dropWhile drop = s := by
      refine (List.dropWhile_sublist drop).eq_of_length_le ?_
      have back := (List.dropWhile_sublist drop (l := (s.dropWhile drop).reverse)).length_le
      have length := congrArg List.length whole
      rw [trimBy, List.length_reverse] at length
      rw [List.length_reverse] at back
      omega
    rw [trimBy, front] at whole
    exact ⟨front, by rw [← List.reverse_inj, List.reverse_reverse, whole]⟩
  · rintro ⟨front, back⟩
    rw [trimBy, front, back, List.reverse_reverse]

theorem trim_eq_self_iff : trim s = s ↔
    (∀ c ∈ s.head?, isBlank c = false) ∧ ∀ c ∈ s.getLast?, isBlank c = false :=
  trimBy_eq_self_iff

theorem join_cons_cons (sep : Char) (piece next : List Char) (pieces : List (List Char)) :
    join [sep] (piece :: next :: pieces) = piece ++ sep :: join [sep] (next :: pieces) := by
  rw [join, List.intercalate_cons_cons, List.append_assoc, List.singleton_append, join]

/-- Pieces that are joined are cut apart again, if there are any. -/
theorem splitAt_join (nonempty : pieces ≠ []) (plain : ∀ piece ∈ pieces, sep ∉ piece) :
    splitAt sep (join [sep] pieces) = pieces := by
  induction pieces with
  | nil => exact absurd rfl nonempty
  | cons piece pieces ih =>
    rw [List.forall_mem_cons] at plain
    cases pieces with
    | nil =>
      rw [join, List.intercalate_singleton]
      exact Numeral.splitAt_of_not_mem plain.1
    | cons next pieces =>
      rw [join_cons_cons, splitAt_append_sep, Numeral.splitAt_of_not_mem plain.1,
        ih (List.cons_ne_nil _ _) plain.2, List.singleton_append]

/-- The room that pieces take, each with a separator after it. -/
def room (pieces : List (List Char)) : Nat := (pieces.map (·.length + 1)).sum

theorem length_join (sep : Char) (nonempty : pieces ≠ []) :
    (join [sep] pieces).length + 1 = room pieces := by
  induction pieces with
  | nil => exact absurd rfl nonempty
  | cons piece pieces ih =>
    cases pieces with
    | nil => simp [join, room]
    | cons next pieces =>
      have ih := ih (List.cons_ne_nil _ _)
      rw [room, List.map_cons, List.sum_cons, ← room, ← ih, join_cons_cons, List.length_append,
        List.length_cons]
      omega

theorem room_splitAt (sep : Char) (s : List Char) : room (splitAt sep s) = s.length + 1 := by
  rw [← length_join sep (splitAt_ne_nil sep s), join_splitAt]

end Text

namespace AssetPath

variable {rooted : Bool} {taken : List (List Char)} {component piece s : List Char} {c : Char}
  {k : Nat}

/-! ### Components -/

/-- A component that leads to something else than the directory itself and the one above. -/
structure IsName (component : List Char) : Prop where
  ne_nil : component ≠ []
  ne_here : component ≠ here
  ne_above : component ≠ above
  plain : '/' ∉ component

theorem descend_of_isName (name : IsName component) :
    descend rooted taken component = component :: taken := by
  rw [descend.eq_def, if_neg (by simp [name.ne_nil, name.ne_here]), if_neg name.ne_above]

theorem descend_above (rooted : Bool) (taken : List (List Char)) : descend rooted taken above =
    match taken with
    | [] => if rooted then [] else [above]
    | top :: below => if top = above then above :: top :: below else below := by
  cases taken <;> rfl

/-- Components that come down to themselves, the latest first: steps up, and names after them. -/
def IsReduced (taken : List (List Char)) : Prop :=
  ∃ names k, (∀ name ∈ names, IsName name) ∧ taken = names ++ List.replicate k above

namespace IsReduced

theorem nil : IsReduced [] := ⟨[], 0, by simp, rfl⟩

theorem descend (reduced : IsReduced taken) (plain : '/' ∉ component) :
    IsReduced (descend rooted taken component) := by
  obtain ⟨names, k, each, rfl⟩ := reduced
  by_cases idle : component = [] ∨ component = here
  · rw [AssetPath.descend.eq_def, if_pos idle]
    exact ⟨names, k, each, rfl⟩
  rw [not_or] at idle
  by_cases up : component = above
  · rw [up, descend_above]
    rcases names with _ | ⟨name, names⟩
    · cases k with
      | zero =>
        cases rooted
        · exact ⟨[], 1, by simp, rfl⟩
        · exact nil
      | succ k => exact ⟨[], k + 2, by simp, rfl⟩
    · rw [List.forall_mem_cons] at each
      rw [List.cons_append]
      dsimp only
      rw [if_neg each.1.ne_above]
      exact ⟨names, k, each.2, rfl⟩
  · have name : IsName component := ⟨idle.1, idle.2, up, plain⟩
    rw [descend_of_isName name]
    exact ⟨component :: names, k, List.forall_mem_cons.2 ⟨name, each⟩, rfl⟩

theorem foldl_descend {pieces : List (List Char)} (reduced : IsReduced taken)
    (plain : ∀ piece ∈ pieces, '/' ∉ piece) :
    IsReduced (pieces.foldl (AssetPath.descend rooted) taken) := by
  induction pieces generalizing taken with
  | nil => exact reduced
  | cons piece pieces ih =>
    rw [List.forall_mem_cons] at plain
    exact ih (reduced.descend plain.1) plain.2

theorem ne_nil_of_mem (reduced : IsReduced taken) (mem : piece ∈ taken) :
    piece ≠ [] ∧ '/' ∉ piece := by
  obtain ⟨names, k, each, rfl⟩ := reduced
  rcases List.mem_append.1 mem with name | up
  · exact ⟨(each piece name).ne_nil, (each piece name).plain⟩
  · rw [List.eq_of_mem_replicate up]
    decide

/-- Without a root they are taken one after the other as they are. -/
theorem foldl_descend_reverse (reduced : IsReduced taken) :
    taken.reverse.foldl (AssetPath.descend false) [] = taken := by
  obtain ⟨names, k, each, rfl⟩ := reduced
  have ups : (List.replicate k above).foldl (AssetPath.descend false) [] =
      List.replicate k above := by
    induction k with
    | zero => rfl
    | succ k ih =>
      rw [List.replicate_succ', List.foldl_append, ih, List.foldl_cons, List.foldl_nil,
        descend_above, ← List.replicate_succ', List.replicate_succ]
      cases k <;> rfl
  induction names with
  | nil => rw [List.nil_append, List.reverse_replicate, ups]
  | cons name names ih =>
    rw [List.forall_mem_cons] at each
    rw [List.cons_append, List.reverse_cons, List.foldl_append, ih each.2, List.foldl_cons,
      List.foldl_nil, descend_of_isName each.1]

end IsReduced

theorem isReduced_components (s : List Char) : IsReduced (components s).reverse := by
  rw [components, List.reverse_reverse]
  exact IsReduced.nil.foldl_descend fun piece mem => (Text.not_mem_of_mem_splitAt mem).1

/-- Text that is joined from components does not begin with a slash. -/
theorem IsReduced.head?_join (reduced : IsReduced taken) :
    (Text.join ['/'] taken.reverse).head? ≠ some '/' := by
  cases order : taken.reverse with
  | nil => simp [Text.join]
  | cons first rest =>
    have there : first ∈ taken := List.mem_reverse.1 (order ▸ List.mem_cons_self)
    obtain ⟨full, plain⟩ := reduced.ne_nil_of_mem there
    obtain ⟨c, first, rfl⟩ := List.exists_cons_of_ne_nil full
    intro root
    have lead : (Text.join ['/'] ((c :: first) :: rest)).head? = some c := by
      cases rest with
      | nil => simp [Text.join]
      | cons next rest => rw [Text.join_cons_cons]; rfl
    rw [lead] at root
    exact plain (Option.some.inj root ▸ List.mem_cons_self)

/-- Components that come down to themselves are those of the text that they make up. -/
theorem components_join (reduced : IsReduced taken) :
    components (Text.join ['/'] taken.reverse) = taken.reverse := by
  rw [components, decide_eq_false reduced.head?_join]
  by_cases empty : taken = []
  · subst empty
    rfl
  · rw [Text.splitAt_join (by simpa using empty) fun piece mem =>
      (reduced.ne_nil_of_mem (List.mem_reverse.1 mem)).2, reduced.foldl_descend_reverse]

theorem mem_descend (mem : piece ∈ descend rooted taken component) :
    piece ∈ taken ∨ piece = component ∨ piece = above := by
  rw [descend.eq_def] at mem
  split at mem
  · exact Or.inl mem
  split at mem
  · split at mem
    · split at mem
      · cases mem
      · exact Or.inr (Or.inr (List.mem_singleton.1 mem))
    · split at mem
      · exact (List.mem_cons.1 mem).symm.imp_right Or.inr
      · exact Or.inl (List.mem_cons_of_mem _ mem)
  · exact (List.mem_cons.1 mem).symm.imp_right Or.inl

/-- A component is a piece of the text, or a step up. -/
theorem mem_foldl_descend {pieces : List (List Char)}
    (mem : piece ∈ pieces.foldl (descend rooted) taken) :
    piece ∈ taken ∨ piece ∈ pieces ∨ piece = above := by
  induction pieces generalizing taken with
  | nil => exact Or.inl mem
  | cons first pieces ih =>
    rcases ih mem with here | later | up
    · rcases mem_descend here with before | rfl | up
      · exact Or.inl before
      · exact Or.inr (Or.inl List.mem_cons_self)
      · exact Or.inr (Or.inr up)
    · exact Or.inr (Or.inl (List.mem_cons_of_mem first later))
    · exact Or.inr (Or.inr up)

/-- The characters of components that are joined are those of the text, slashes and dots. -/
theorem mem_join_components (mem : c ∈ Text.join ['/'] (components s)) :
    c ∈ s ∨ c = '/' ∨ c = '.' := by
  rcases Text.mem_join mem with slash | inside
  · exact Or.inr (Or.inl (List.mem_singleton.1 slash))
  · obtain ⟨piece, there, member⟩ := List.mem_flatten.1 inside
    rcases mem_foldl_descend (List.mem_reverse.1 there) with none | cut | rfl
    · cases none
    · exact Or.inl ((Text.not_mem_of_mem_splitAt cut).2 member)
    · exact Or.inr (Or.inr (by simpa [above] using member))

/-! ### The room of a path -/

theorem room_descend_le (rooted : Bool) (taken : List (List Char)) (component : List Char) :
    Text.room (descend rooted taken component) ≤ Text.room taken + (component.length + 1) := by
  rw [descend.eq_def]
  split
  · omega
  split
  · next up =>
    have two : component.length = 2 := up ▸ rfl
    split
    · split <;> simp [Text.room, above, two]
    · next top below =>
      split <;> simp only [Text.room, List.map_cons, List.sum_cons, two]
      · simp [above]
        omega
      · omega
  · simp only [Text.room, List.map_cons, List.sum_cons]
    omega

theorem room_foldl_descend_le (rooted : Bool) (pieces taken : List (List Char)) :
    Text.room (pieces.foldl (descend rooted) taken) ≤ Text.room taken + Text.room pieces := by
  induction pieces generalizing taken with
  | nil => exact Nat.le_refl _
  | cons piece pieces ih =>
    have first := room_descend_le rooted taken piece
    have later := ih (descend rooted taken piece)
    simp only [Text.room, List.map_cons, List.sum_cons, List.foldl_cons] at *
    omega

/-- A path is no longer for being brought to its components. -/
theorem length_join_components_le (s : List Char) :
    (Text.join ['/'] (components s)).length ≤ s.length := by
  by_cases empty : components s = []
  · rw [empty]
    exact Nat.zero_le _
  · have joined := Text.length_join '/' empty
    have room : Text.room (components s) ≤ s.length + 1 := by
      rw [components, Text.room, List.map_reverse, List.sum_reverse, ← Text.room,
        ← Text.room_splitAt '/' s]
      exact (room_foldl_descend_le _ _ []).trans (Nat.zero_add _).le
    omega

/-! ### Normal forms -/

/-- Text that is the normal form of some path. -/
structure IsNormal (s : List Char) : Prop where
  small : ∀ c ∈ s, Text.IsSmall c
  forward : '\\' ∉ s
  reduced : ∃ taken, IsReduced taken ∧ s = Text.join ['/'] taken.reverse

theorem dropRoot_suffix (s : List Char) : dropRoot s <:+ s := by
  unfold dropRoot
  split
  · exact List.suffix_cons _ _
  · exact List.suffix_rfl

theorem not_mem_map_slash (s : List Char) : '\\' ∉ s.map slash := by
  intro mem
  obtain ⟨c, -, same⟩ := List.mem_map.1 mem
  unfold slash at same
  split at same
  · exact absurd same (by decide)
  · next other => exact other same

theorem map_slash_eq_self (forward : '\\' ∉ s) : s.map slash = s := by
  refine (List.map_congr_left fun c mem => ?_).trans (List.map_id s)
  exact if_neg fun same : c = '\\' => forward (same ▸ mem)

/-- Normalising yields normal forms. -/
theorem isNormal_normalizeChars (s : List Char) : IsNormal (normalizeChars s) := by
  have from_lower : ∀ c ∈ normalizeChars s,
      c ∈ Text.lower ((Text.trim s).map slash) ∨ c = '/' ∨ c = '.' := fun c mem =>
    (mem_join_components mem).imp_left fun there => (dropRoot_suffix _).subset there
  constructor
  · intro c mem
    rcases from_lower c mem with lowered | rfl | rfl
    · exact Text.isSmall_of_mem_lower lowered
    · decide +kernel
    · decide +kernel
  · intro mem
    rcases from_lower _ mem with lowered | slash | dot
    · rcases Text.mem_or_le_of_mem_lower lowered with before | high
      · exact not_mem_map_slash _ before
      · exact absurd high (by decide)
    · exact absurd slash (by decide)
    · exact absurd dot (by decide)
  · exact ⟨_, isReduced_components _, by rw [List.reverse_reverse]; rfl⟩

namespace IsNormal

theorem dropRoot_eq_self (normal : IsNormal s) : dropRoot s = s := by
  obtain ⟨taken, reduced, rfl⟩ := normal.reduced
  have lead := reduced.head?_join
  unfold dropRoot
  split
  · next same => rw [same] at lead; exact absurd rfl lead
  · rfl

/-- A normal form that is trimmed to itself is normalised to itself. -/
theorem normalizeChars_eq_self (normal : IsNormal s) (trimmed : Text.trim s = s) :
    normalizeChars s = s := by
  rw [normalizeChars, trimmed, map_slash_eq_self normal.forward, Text.lower_eq_self normal.small,
    normal.dropRoot_eq_self]
  obtain ⟨taken, reduced, rfl⟩ := normal.reduced
  rw [components_join reduced]

/-- Of a normal form no more is left than what it is trimmed to. -/
theorem length_normalizeChars_le (normal : IsNormal s) :
    (normalizeChars s).length ≤ (Text.trim s).length := by
  have part := Text.trim_sublist s
  rw [normalizeChars, map_slash_eq_self fun mem => normal.forward (part.subset mem),
    Text.lower_eq_self fun c mem => normal.small c (part.subset mem)]
  exact (length_join_components_le _).trans (dropRoot_suffix _).length_le

theorem normalizeChars_eq_self_iff (normal : IsNormal s) :
    normalizeChars s = s ↔ Text.trim s = s := by
  refine ⟨fun same => ?_, normal.normalizeChars_eq_self⟩
  -- if blanks were lost, so would be their room
  have length := normal.length_normalizeChars_le
  rw [same] at length
  exact (Text.trim_sublist s).eq_of_length_le length

end IsNormal

/-- The normal form of a path is normalised to itself exactly if it neither begins nor ends in a
blank. -/
theorem normalize_normalize_iff (path : String) :
    normalize (normalize path) = normalize path ↔
      (∀ c ∈ (normalize path).toList.head?, Text.isBlank c = false) ∧
        ∀ c ∈ (normalize path).toList.getLast?, Text.isBlank c = false := by
  have normal := isNormal_normalizeChars path.toList
  rw [← Text.trim_eq_self_iff, normalize, normalize, String.toList_ofList,
    ← normal.normalizeChars_eq_self_iff, String.ofList_inj]

/-- The root is dropped after the blanks around the path, so that a blank may be exposed. -/
theorem normalize_normalize_blankAfterRoot :
    normalize (normalize "/ a") ≠ normalize "/ a" := by decide

end AssetPath

end PackPlan
