import NetTrap.Library.Search
import NetTrap.Vfs.Filesystem

/-! Path texts and the lists of names they stand for. -/

namespace NetTrap.Vfs

open Search Rust List

/-- A component that a normalised path can have. -/
structure IsName (text : Text) : Prop where
  nonempty : text ≠ []
  noDot : text ≠ ['.']
  noDots : text ≠ ['.', '.']
  noSlash : '/' ∉ text
  noBackslash : '\\' ∉ text

/-- A component of a normalised path. -/
abbrev Name := { text : Text // IsName text }

def names (path : List Name) : List Text :=
  path.map Subtype.val

/-- The normalised text of a path. -/
def render (path : List Name) : Text :=
  '/' :: ['/'].intercalate (names path)

theorem names_injective : Function.Injective names :=
  map_injective_iff.mpr Subtype.val_injective

variable {path : List Name}

theorem names_ne_nil : names path ≠ [] ↔ path ≠ [] := by
  rw [names, ne_eq, map_eq_nil_iff]

variable {text : Text}

theorem isName_of_mem_names (member : text ∈ names path) : IsName text := by
  obtain ⟨name, -, rfl⟩ := mem_map.mp member
  exact name.property

/-! From a text to names. -/

/-- A step keeps a list of names, if its component has neither slash nor backslash. -/
theorem isName_of_mem_pushComponent {components component}
    (known : ∀ text ∈ components, IsName text) (noSlash : '/' ∉ component)
    (noBackslash : '\\' ∉ component)
    : ∀ text ∈ pushComponent components component, IsName text := by
  intro text member
  rw [pushComponent] at member
  split at member
  · exact known text member
  next proper =>
  split at member
  · exact known text (dropLast_subset _ member)
  next noDots =>
  rcases mem_append.mp member with old | new
  · exact known text old
  · obtain rfl := mem_singleton.mp new
    rw [not_or] at proper
    exact ⟨proper.1, proper.2, noDots, noSlash, noBackslash⟩

theorem isName_of_mem_pathComponents {path : Text} (member : text ∈ pathComponents path)
    : IsName text := by
  have step {components pieces : List Text} (known : ∀ text ∈ components, IsName text)
      (plain : ∀ piece ∈ pieces, '/' ∉ piece ∧ '\\' ∉ piece)
      : ∀ text ∈ pieces.foldl pushComponent components, IsName text := by
    induction pieces generalizing components with
    | nil => exact known
    | cons piece pieces ih =>
      have here := plain piece mem_cons_self
      exact ih (isName_of_mem_pushComponent known here.1 here.2)
        fun other inside => plain other (mem_cons_of_mem _ inside)
  refine step (show ∀ text ∈ ([] : List Text), IsName text from nofun) ?_ text member
  intro piece inside
  refine ⟨fun slash => (mem_piece inside slash).1 rfl, fun backslash => ?_⟩
  obtain ⟨char, -, same⟩ := mem_map.mp (mem_piece inside backslash).2
  split at same
  · cases same
  · next distinct => exact distinct same

/-- The names of a path text. -/
def components (path : Text) : List Name :=
  (pathComponents path).pmap Subtype.mk fun _ => isName_of_mem_pathComponents

theorem names_components (path : Text) : names (components path) = pathComponents path := by
  rw [names, components, map_pmap]
  exact pmap_eq_self.mpr fun _ _ => rfl

theorem normalizePath_eq (path : Text) : normalizePath path = render (components path) := by
  rw [normalizePath, render, names_components]
  split
  · next empty => rw [empty]; rfl
  · rfl

/-! From names to a text. -/

theorem intercalate_append {first second} (left : first ≠ []) (right : second ≠ [])
    : ['/'].intercalate (first ++ second)
      = ['/'].intercalate first ++ '/' :: ['/'].intercalate second := by
  induction first with
  | nil => exact absurd rfl left
  | cons piece first ih =>
    by_cases last : first = []
    · rw [last, singleton_append, intercalate_cons_of_ne_nil right,
        intercalate_singleton, append_assoc]
      rfl
    · rw [cons_append, intercalate_cons_of_ne_nil (append_ne_nil_of_left_ne_nil last _),
        ih last, intercalate_cons_of_ne_nil last, append_assoc (piece ++ ['/'])]

theorem render_append {rest} (left : path ≠ []) (right : rest ≠ [])
    : render (path ++ rest) = render path ++ '/' :: ['/'].intercalate (names rest) := by
  have leftNames : names path ≠ [] := names_ne_nil.mpr left
  have rightNames : names rest ≠ [] := names_ne_nil.mpr right
  have split : names (path ++ rest) = names path ++ names rest := map_append
  rw [render, split, intercalate_append leftNames rightNames, render, cons_append]

/-- Splitting the text of a path gives its names, behind the empty text before the root. -/
theorem splitOn_render (path : List Name)
    : (render path).splitOn '/' = [] :: (if path = [] then [[]] else names path) := by
  have front : (render path).splitOn '/' = [] :: (['/'].intercalate (names path)).splitOn '/' := by
    exact splitOn_append_cons_self_of_not_mem not_mem_nil _
  rw [front]
  split
  · next empty => rw [empty]; rfl
  · next nonempty =>
    rw [splitOn_intercalate '/' (fun text member => (isName_of_mem_names member).noSlash)
      (names_ne_nil.mpr nonempty)]

theorem foldl_pushComponent_names (known : List Text) (path : List Name)
    : (names path).foldl pushComponent known = known ++ names path := by
  induction path generalizing known with
  | nil => rw [names, map_nil, foldl_nil, append_nil]
  | cons name path ih =>
    have step : pushComponent known name.val = known ++ [name.val] := by
      rw [pushComponent, if_neg (not_or.mpr ⟨name.property.nonempty, name.property.noDot⟩),
        if_neg name.property.noDots]
    have shape : names (name :: path) = name.val :: names path := rfl
    rw [shape, foldl_cons, step, ih, append_assoc, singleton_append]

/-- No backslash is left to be replaced. -/
theorem map_slashes (plain : '\\' ∉ text)
    : text.map (fun char => if char = '\\' then '/' else char) = text := by
  refine (map_congr_left ?_).trans (map_id text)
  intro char member
  rw [if_neg]
  · rfl
  · rintro rfl
    exact plain member

theorem not_mem_intercalate (path : List Name) : '\\' ∉ ['/'].intercalate (names path) := by
  induction path with
  | nil => exact not_mem_nil
  | cons name path ih =>
    rw [names, map_cons, ← names]
    by_cases last : names path = []
    · rw [last, intercalate_singleton]
      exact name.property.noBackslash
    · rw [intercalate_cons_of_ne_nil last, mem_append, mem_append, not_or, not_or]
      exact ⟨⟨name.property.noBackslash, by decide⟩, ih⟩

theorem not_mem_render (path : List Name) : '\\' ∉ render path := by
  rw [render, mem_cons, not_or]
  exact ⟨by decide, not_mem_intercalate path⟩

/-- The components of a normalised text, with more behind it. -/
theorem pathComponents_append {more : Text} (plain : '\\' ∉ more)
    : pathComponents (render path ++ '/' :: more)
      = (more.splitOn '/').foldl pushComponent (names path) := by
  have whole : '\\' ∉ render path ++ '/' :: more := by
    rw [mem_append, mem_cons, not_or, not_or]
    exact ⟨not_mem_render path, by decide, plain⟩
  have front : ((render path).splitOn '/').foldl pushComponent [] = names path := by
    rw [splitOn_render, foldl_cons]
    split
    · next empty => rw [empty]; rfl
    · exact foldl_pushComponent_names [] path
  rw [pathComponents, map_slashes whole, splitOn_append_cons_self, foldl_append, front]

theorem components_append_names (path rest : List Name)
    : components (render path ++ '/' :: ['/'].intercalate (names rest)) = path ++ rest := by
  apply names_injective
  rw [names_components, pathComponents_append (not_mem_intercalate rest)]
  by_cases empty : rest = []
  · rw [empty, append_nil]
    rfl
  · have pieces : (['/'].intercalate (names rest)).splitOn '/' = names rest :=
      splitOn_intercalate '/' (fun text member => (isName_of_mem_names member).noSlash)
        (names_ne_nil.mpr empty)
    rw [pieces, foldl_pushComponent_names]
    exact map_append.symm

@[simp]
theorem components_render (path : List Name) : components (render path) = path := by
  apply names_injective
  rw [names_components, pathComponents, map_slashes (not_mem_render path), splitOn_render,
    foldl_cons]
  split
  · next empty => rw [empty]; rfl
  · exact foldl_pushComponent_names [] path

theorem render_injective : Function.Injective render :=
  Function.LeftInverse.injective components_render

theorem normalizePath_render (path : List Name) : normalizePath (render path) = render path := by
  rw [normalizePath_eq, components_render]

theorem render_eq_root : render path = ['/'] ↔ path = [] := by
  have root : render [] = ['/'] := rfl
  rw [← root, render_injective.eq_iff]

/-- A text is normalised exactly if it is the text of a path. -/
theorem normalizePath_eq_self : normalizePath text = text ↔ ∃ path, text = render path := by
  constructor
  · intro same
    exact ⟨components text, by rw [← normalizePath_eq, same]⟩
  · rintro ⟨path, rfl⟩
    exact normalizePath_render path

/-- Below a path stand the paths that continue it. -/
theorem isPrefixOf_render {other} (notRoot : path ≠ [])
    : (render path ++ ['/']).isPrefixOf (render other) = true
      ↔ ∃ rest, rest ≠ [] ∧ other = path ++ rest := by
  rw [List.isPrefixOf_iff_prefix]
  constructor
  · rintro ⟨tail, shape⟩
    have pieces := splitOn_render other
    rw [← shape, append_assoc, singleton_append, splitOn_append_cons_self,
      splitOn_render path, if_neg notRoot, cons_append, cons.injEq] at pieces
    have nonempty := splitOn_ne_nil '/' tail
    obtain ⟨-, pieces⟩ := pieces
    split at pieces
    · have lengths := congrArg length pieces
      have left := length_pos_iff.mpr (names_ne_nil.mpr notRoot)
      have right := length_pos_iff.mpr nonempty
      rw [length_append, length_singleton] at lengths
      omega
    · obtain ⟨front, rest, rfl, same, more⟩ := map_eq_append_iff.mp pieces.symm
      refine ⟨rest, ?_, by rw [names_injective same]⟩
      rintro rfl
      exact nonempty more.symm
  · rintro ⟨rest, nonempty, rfl⟩
    rw [render_append notRoot nonempty]
    exact ⟨['/'].intercalate (names rest), by rw [append_assoc]; rfl⟩

/-- What stands behind a path in the text of a path below it. -/
theorem drop_render {rest} (notRoot : path ≠ []) (nonempty : rest ≠ [])
    : (render (path ++ rest)).drop (render path ++ ['/']).length
      = ['/'].intercalate (names rest) := by
  have shape : render (path ++ rest)
      = (render path ++ ['/']) ++ ['/'].intercalate (names rest) := by
    rw [render_append notRoot nonempty, append_assoc]
    rfl
  rw [shape, drop_left]

theorem parentPath_root : parentPath (render []) = none :=
  rfl

/-- The text before the last slash. -/
theorem pathParent_append (front : Text) {name : Text} (noSlash : '/' ∉ name) (nonempty : name ≠ [])
    : pathParent (front ++ '/' :: name) = some (if front = [] then ['/'] else front) := by
  have notRoot : front ++ '/' :: name ≠ ['/'] := by
    intro same
    have lengths := congrArg length same
    have positive := length_pos_iff.mpr nonempty
    rw [length_append, length_cons, length_singleton] at lengths
    omega
  have skipped : (name.reverse ++ ('/' :: front.reverse)).dropWhile
      (fun char => decide (char ≠ '/')) = '/' :: front.reverse := by
    rw [dropWhile_append_of_pos]
    · simp
    · intro char member
      rw [decide_eq_true_iff]
      rintro rfl
      exact noSlash (mem_reverse.mp member)
  have reversed : (front ++ '/' :: name).reverse = name.reverse ++ ('/' :: front.reverse) := by
    simp
  rw [pathParent, if_neg notRoot, reversed, skipped, drop_succ_cons, drop_zero, reverse_reverse]

theorem parentPath_render (path : List Name) (name : Name)
    : parentPath (render (path ++ [name])) = some (render path) := by
  by_cases top : path = []
  · subst top
    have parent := pathParent_append [] name.property.noSlash name.property.nonempty
    have shape : render ([] ++ [name]) = [] ++ '/' :: name.val := by
      rw [nil_append, nil_append, render, names, map_singleton, intercalate_singleton]
    rw [parentPath, shape, parent, if_pos rfl]
    rfl
  · have parent := pathParent_append (render path) name.property.noSlash name.property.nonempty
    have shape : render (path ++ [name]) = render path ++ '/' :: name.val := by
      rw [render_append top (cons_ne_nil _ _), names, map_singleton, intercalate_singleton]
    rw [parentPath, shape, parent, if_neg (show render path ≠ [] from cons_ne_nil _ _),
      Option.map_some, normalizePath_render]

end NetTrap.Vfs
