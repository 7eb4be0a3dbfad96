import NetTrap.Http.Targets

/-! The paths that request targets are normalised to. -/

namespace NetTrap.Http

open Search Rust List

/-! The steps of `normalizeRequestTarget`. -/

def withSlashes (target : Str) : Str :=
  target.map fun byte => if byte == 92 then 47 else byte

/-- The path of a target, with what follows it. -/
def fromPath (target : Str) : Str :=
  match findSub (ascii "://") target with
  | none => target
  | some schemePos =>
    let scheme := target.take schemePos
    if eqIgnoreAsciiCase scheme (ascii "http") || eqIgnoreAsciiCase scheme (ascii "https") then
      let rest := target.drop (schemePos + 3)
      match rest.findIdx? (· == 47) with
      | some pos => rest.drop pos
      | none => ascii "/"
    else target

def cutPath (path : Str) : Str :=
  (path.takeWhile (· != 35)).takeWhile (· != 63)

def joinPath : List Str → Str
  | [] => ascii "/"
  | components => components.flatMap (47 :: ·)

/-- A host and a port: a colon and none of the delimiters of the other forms. -/
def HasAuthorityForm (target : Str) : Prop :=
  58 ∈ target ∧ 47 ∉ target ∧ 92 ∉ target ∧ 63 ∉ target ∧ 35 ∉ target

theorem normalizeRequestTarget_eq {target} (star : target ≠ ascii "*")
    (form : ¬ HasAuthorityForm target)
    : normalizeRequestTarget target = joinPath (normalizedComponents
          ((cutPath (fromPath (withSlashes target))).splitOn 47)) := by
  rw [normalizeRequestTarget, if_neg (by simpa using star), if_neg]
  · rfl
  · intro early
    apply form
    simp only [Bool.and_eq_true, Bool.not_eq_true', contains_eq_mem,
      decide_eq_false_iff_not, decide_eq_true_eq] at early
    obtain ⟨⟨⟨⟨⟨slash, backslash⟩, query⟩, fragment⟩, -⟩, colon⟩ := early
    exact ⟨colon, slash, backslash, query, fragment⟩

/-! Components. -/

/-- A component that stays in a path. -/
structure IsName (component : Str) : Prop where
  nonempty : component ≠ []
  noDot : component ≠ ascii "."
  noDots : component ≠ ascii ".."

theorem normalizedComponents_snoc (components : List Str) (component : Str)
    : normalizedComponents (components ++ [component])
      = if component == [] || component == ascii "." then normalizedComponents components
        else if component == ascii ".." then (normalizedComponents components).dropLast
        else normalizedComponents components ++ [component] := by
  rw [normalizedComponents, foldl_append]
  rfl

variable {components : List Str}

theorem mem_normalizedComponents {component} (member : component ∈ normalizedComponents components)
    : component ∈ components ∧ IsName component := by
  induction components using reverseRecOn with
  | nil => cases member
  | append_singleton components last ih =>
    rw [normalizedComponents_snoc] at member
    split at member
    · exact ⟨mem_append_left _ (ih member).1, (ih member).2⟩
    rename_i proper
    split at member
    · have kept := ih (dropLast_subset _ member)
      exact ⟨mem_append_left _ kept.1, kept.2⟩
    rename_i noDots
    rcases mem_append.mp member with old | new
    · exact ⟨mem_append_left _ (ih old).1, (ih old).2⟩
    · obtain rfl := mem_singleton.mp new
      simp only [Bool.or_eq_true, beq_iff_eq, not_or] at proper noDots
      exact ⟨mem_append_right _ new, proper.1, proper.2, noDots⟩

theorem normalizedComponents_names (names : ∀ component ∈ components, IsName component)
    : normalizedComponents components = components := by
  induction components using reverseRecOn with
  | nil => rfl
  | append_singleton components last ih =>
    have isName := names last (mem_append_right _ mem_cons_self)
    rw [normalizedComponents_snoc,
      ih fun component member => names component (mem_append_left _ member)]
    simp [isName.nonempty, isName.noDot, isName.noDots]

/-- How many components are left once each `..` has taken one back. -/
def openComponents (components : List Str) : Nat :=
  components.foldl (fun depth component =>
    if component == [] || component == ascii "." then depth
    else if component == ascii ".." then depth - 1
    else depth + 1) 0

theorem length_normalizedComponents (components : List Str)
    : (normalizedComponents components).length = openComponents components := by
  induction components using reverseRecOn with
  | nil => rfl
  | append_singleton components last ih =>
    rw [normalizedComponents_snoc, openComponents, foldl_append, ← openComponents, ← ih,
      foldl_cons, foldl_nil]
    split
    · rfl
    · split
      · exact length_dropLast
      · rw [length_append]
        rfl

/-- Splitting a joined path gives its components, behind what stands before the first
slash.
-/
theorem splitOn_flatMap {front} (absent : 47 ∉ front)
    (plain : ∀ component ∈ components, 47 ∉ component)
    : (front ++ components.flatMap (47 :: ·)).splitOn 47 = front :: components := by
  induction components generalizing front with
  | nil => rw [flatMap_nil, append_nil, splitOn_eq_singleton absent]
  | cons component components ih =>
    rw [forall_mem_cons] at plain
    rw [flatMap_cons, cons_append, splitOn_append_cons_self_of_not_mem absent, ih plain.1 plain.2]

theorem joinPath_eq (filled : components ≠ [])
    : joinPath components = components.flatMap (47 :: ·) := by
  cases components with
  | nil => exact absurd rfl filled
  | cons component components => rfl

theorem mem_joinPath {byte} (member : byte ∈ joinPath components)
    : byte = 47 ∨ ∃ component ∈ components, byte ∈ component := by
  cases components with
  | nil => exact .inl (mem_singleton.mp member)
  | cons component components =>
    obtain ⟨piece, inside, here⟩ := mem_flatMap.mp member
    exact (mem_cons.mp here).imp id fun inner => ⟨piece, inside, inner⟩

/-! Paths that are normalised already. -/

/-- A component of a path without the delimiters of a target. -/
structure IsPathName (component : Str) : Prop extends IsName component where
  plain : ∀ byte ∈ component, byte ≠ 47 ∧ byte ≠ 63 ∧ byte ≠ 35 ∧ byte ≠ 92

theorem withSlashes_self {text} (plain : 92 ∉ text) : withSlashes text = text := by
  refine (map_congr_left fun byte member => ?_).trans (map_id text)
  rw [if_neg]
  · rfl
  · rintro same
    exact plain (beq_iff_eq.mp same ▸ member)

theorem cutPath_self {path} (query : 63 ∉ path) (fragment : 35 ∉ path) : cutPath path = path := by
  have before : path.takeWhile (· != 35) = path :=
    takeWhile_eq_self_iff.mpr fun byte member => by
      simpa using fun same : byte = 35 => fragment (same ▸ member)
  rw [cutPath, before]
  exact takeWhile_eq_self_iff.mpr fun byte member => by
    simpa using fun same : byte = 63 => query (same ▸ member)

/-- A normalised path is kept: it has no empty component, and so no scheme. -/
theorem normalizeRequestTarget_joinPath (names : ∀ component ∈ components, IsPathName component)
    : normalizeRequestTarget (joinPath components) = joinPath components := by
  by_cases empty : components = []
  · rw [empty]
    decide +kernel
  have shape := joinPath_eq empty
  have plain {byte : UInt8} (member : byte ∈ joinPath components)
      : byte ≠ 63 ∧ byte ≠ 35 ∧ byte ≠ 92 := by
    rcases mem_joinPath member with rfl | ⟨component, inside, here⟩
    · decide
    · exact ((names component inside).plain byte here).2
  have slash : 47 ∈ joinPath components := by
    obtain ⟨first, rest, rfl⟩ := exists_cons_of_ne_nil empty
    exact mem_cons_self
  have pieces : (joinPath components).splitOn 47 = [] :: components := by
    rw [shape]
    exact splitOn_flatMap not_mem_nil fun component member inside =>
      ((names component member).plain 47 inside).1 rfl
  have noScheme : findSub (ascii "://") (joinPath components) = none := by
    cases found : findSub (ascii "://") (joinPath components) with
    | none => rfl
    | some index =>
      have split := findSub_split found
      have double := nil_mem_tail_splitOn 47 ((joinPath components).take index ++ [58])
        ((joinPath components).drop (index + (ascii "://").length))
      rw [append_assoc, show [58] ++ (47 :: 47 :: (joinPath components).drop
        (index + (ascii "://").length)) = ascii "://" ++ (joinPath components).drop
        (index + (ascii "://").length) from rfl, ← append_assoc, ← split, pieces] at double
      exact absurd rfl (names [] double).nonempty
  have kept : normalizedComponents ([] :: components) = components :=
    normalizedComponents_names fun component member => (names component member).toIsName
  rw [normalizeRequestTarget_eq, withSlashes_self fun inside => (plain inside).2.2 rfl, fromPath,
    noScheme]
  · dsimp only
    rw [cutPath_self (fun inside => (plain inside).1 rfl) fun inside => (plain inside).2.1 rfl,
      pieces, kept]
  · intro star
    rw [star] at slash
    revert slash
    decide
  · exact fun form => form.2.1 slash

theorem mem_fromPath {target byte} (member : byte ∈ fromPath target)
    : byte = 47 ∨ byte ∈ target := by
  rw [fromPath] at member
  split at member
  · exact .inr member
  · dsimp only at member
    split at member
    · split at member
      · exact .inr (mem_of_mem_drop (mem_of_mem_drop member))
      · exact .inl (mem_singleton.mp member)
    · exact .inr member

theorem not_mem_withSlashes (target : Str) : 92 ∉ withSlashes target := by
  intro member
  obtain ⟨byte, -, same⟩ := mem_map.mp member
  split at same
  · cases same
  · next distinct => exact distinct (beq_iff_eq.mpr same)

theorem isPathName_of_mem {target component}
    (member : component
      ∈ normalizedComponents ((cutPath (fromPath (withSlashes target))).splitOn 47))
    : IsPathName component := by
  obtain ⟨piece, isName⟩ := mem_normalizedComponents member
  refine ⟨isName, fun byte inside => ?_⟩
  obtain ⟨noSlash, inPath⟩ := mem_piece piece inside
  have noQuery := mem_takeWhile_imp inPath
  have cut := (takeWhile_sublist _).subset inPath
  have noFragment := mem_takeWhile_imp cut
  have within := mem_fromPath ((takeWhile_sublist _).subset cut)
  refine ⟨noSlash, by simpa using noQuery, by simpa using noFragment, ?_⟩
  rintro rfl
  exact not_mem_withSlashes target (within.resolve_left (by decide))

/-- Request targets in origin and absolute form are normalised to paths, which are
normalised to themselves.
-/
theorem normalize_request_target_safe {target : Str} (star : target ≠ ascii "*")
    (form : ¬ HasAuthorityForm target)
    : (normalizeRequestTarget target).head? = some 47 ∧ (normalizeRequestTarget target = ascii "/"
        ∨ ∀ component ∈ (normalizeRequestTarget target).tail.splitOn 47,
            component ≠ [] ∧ component ≠ ascii "." ∧ component ≠ ascii "..")
      ∧ (∀ byte ∈ normalizeRequestTarget target, byte ≠ 63 ∧ byte ≠ 35 ∧ byte ≠ 92)
      ∧ normalizeRequestTarget (normalizeRequestTarget target) = normalizeRequestTarget target := by
  have names
      : ∀ component ∈ normalizedComponents ((cutPath (fromPath (withSlashes target))).splitOn 47),
          IsPathName component :=
    fun component => isPathName_of_mem
  rw [normalizeRequestTarget_eq star form]
  generalize normalizedComponents ((cutPath (fromPath (withSlashes target))).splitOn 47)
    = components at names
  refine ⟨?_, ?_, ?_, normalizeRequestTarget_joinPath names⟩
  · cases components <;> rfl
  · cases components with
    | nil => exact .inl rfl
    | cons first components =>
      refine .inr fun component member => ?_
      rw [List.forall_mem_cons] at names
      have pieces := splitOn_flatMap (fun inside => (names.1.plain 47 inside).1 rfl)
        fun component member inside => ((names.2 component member).plain 47 inside).1 rfl
      rw [joinPath_eq (List.cons_ne_nil _ _), List.flatMap_cons, List.cons_append,
        List.tail_cons, pieces] at member
      have isName := List.forall_mem_cons.mpr names component member
      exact ⟨isName.nonempty, isName.noDot, isName.noDots⟩
  · intro byte member
    rcases mem_joinPath member with rfl | ⟨component, inside, here⟩
    · decide
    · exact ((names component inside).plain byte here).2

theorem normalize_request_target_safe_dots
    : normalizeRequestTarget (ascii "/a/./b/../c?d") = ascii "/a/c"
      ∧ normalizeRequestTarget (normalizeRequestTarget (ascii "/a/./b/../c?d"))
        = normalizeRequestTarget (ascii "/a/./b/../c?d") := by
  have form : ¬ HasAuthorityForm (ascii "/a/./b/../c?d") := by
    unfold HasAuthorityForm
    decide
  exact ⟨by decide +kernel, (normalize_request_target_safe (by decide) form).2.2.2⟩

/-! Targets in absolute form. -/

def isSlash (byte : UInt8) : Bool :=
  byte == 47 || byte == 92

/-- A byte that ends a path. -/
def endsPath (byte : UInt8) : Bool :=
  byte == 63 || byte == 35

/-- `http://` or `https://`, an authority, and the rest from its first delimiter on. -/
structure AbsoluteTarget where
  (scheme authority rest : Str)
  http : eqIgnoreAsciiCase scheme (ascii "http") || eqIgnoreAsciiCase scheme (ascii "https")
  host : ∀ byte ∈ authority, isSlash byte = false ∧ endsPath byte = false
  delimited : ∀ byte ∈ rest.head?, isSlash byte = true ∨ endsPath byte = true

namespace AbsoluteTarget

def text (target : AbsoluteTarget) : Str :=
  target.scheme ++ (ascii "://" ++ (target.authority ++ target.rest))

/-- The path part: what stands between the authority and the query or fragment. -/
def path (target : AbsoluteTarget) : Str :=
  target.rest.takeWhile fun byte => !endsPath byte

/-- What follows the first slash of the rest, up to the next query or fragment. -/
def slashed (target : AbsoluteTarget) : Str :=
  (target.rest.dropWhile fun byte => !isSlash byte).takeWhile fun byte => !endsPath byte

/-- The target has a query or fragment and no path, and the text behind a slash in that
query or fragment names a component that no `..` takes back.
-/
def NamesPathInQuery (target : AbsoluteTarget) : Prop :=
  (∃ byte ∈ target.rest.head?, endsPath byte = true)
  ∧ openComponents ((withSlashes target.slashed).splitOn 47) ≠ 0

end AbsoluteTarget

theorem scheme_plain {scheme}
    (http : eqIgnoreAsciiCase scheme (ascii "http") || eqIgnoreAsciiCase scheme (ascii "https"))
    {byte} (member : byte ∈ scheme)
    : byte ≠ 58 ∧ byte ≠ 92 ∧ byte ≠ 47 := by
  have lower := mem_map_of_mem (f := toAsciiLowercase) member
  rw [Bool.or_eq_true, eqIgnoreAsciiCase, eqIgnoreAsciiCase, beq_iff_eq, beq_iff_eq] at http
  rcases http with same | same
  all_goals
    rw [same] at lower
    refine ⟨?_, ?_, ?_⟩
  all_goals
    rintro rfl
    revert lower
    decide

/-- A path has no scheme of its own. -/
theorem fromPath_slash (more : Str) : fromPath (47 :: more) = 47 :: more := by
  rw [fromPath]
  split
  · rfl
  · rename_i index found
    dsimp only
    rw [if_neg]
    intro http
    cases index with
    | zero =>
      rw [take_zero] at http
      revert http
      decide
    | succ index =>
      rw [take_succ_cons] at http
      exact (scheme_plain http mem_cons_self).2.2 rfl

theorem cutPath_eq (path : Str) : cutPath path = path.takeWhile fun byte => !endsPath byte := by
  rw [cutPath, takeWhile_takeWhile]
  congr 1
  funext byte
  simp [endsPath, Bool.beq_eq_decide_eq]

/-- Backslashes are slashes, and they do not end paths. -/
theorem withSlashes_byte (byte : UInt8)
    : endsPath (if byte == 92 then 47 else byte) = endsPath byte
      ∧ ((if byte == 92 then 47 else byte) == 47) = isSlash byte := by
  by_cases backslash : byte = 92
  · rw [backslash]
    decide
  · simp [isSlash, backslash]

theorem cutPath_withSlashes (path : Str)
    : cutPath (withSlashes path) = withSlashes (path.takeWhile fun byte => !endsPath byte) := by
  rw [cutPath_eq, withSlashes, takeWhile_map]
  congr 2
  funext byte
  exact congrArg not (withSlashes_byte byte).1

theorem not_mem_withSlashes_of_noSlash {text} (plain : ∀ byte ∈ text, isSlash byte = false)
    : 47 ∉ withSlashes text := by
  intro member
  obtain ⟨byte, inside, same⟩ := mem_map.mp member
  have slash := (withSlashes_byte byte).2
  rw [same, plain byte inside] at slash
  cases slash

namespace AbsoluteTarget

variable (target : AbsoluteTarget)

/-- The code goes on from the first slash behind the scheme. -/
theorem fromPath_text
    : fromPath (withSlashes target.text)
      = if target.rest.dropWhile (fun byte => !isSlash byte) = [] then ascii "/"
        else withSlashes (target.rest.dropWhile fun byte => !isSlash byte) := by
  obtain ⟨scheme, authority, rest, http, host, delimited⟩ := target
  have isScheme : withSlashes scheme = scheme :=
    withSlashes_self fun member => (scheme_plain http member).2.1 rfl
  have shape : withSlashes (scheme ++ (ascii "://" ++ (authority ++ rest)))
      = scheme ++ (ascii "://" ++ withSlashes (authority ++ rest)) := by
    rw [withSlashes, map_append, ← withSlashes, isScheme, map_append]
    rfl
  have found : findSub (ascii "://") (scheme ++ (ascii "://" ++ withSlashes (authority ++ rest)))
      = some scheme.length := by
    rw [show ascii "://" = 58 :: [47, 47] from rfl,
      findSub_skip fun member => (scheme_plain http member).1 rfl, findSub_self, Option.map_some,
      Nat.zero_add]
  have behind : (scheme ++ (ascii "://" ++ withSlashes (authority ++ rest))).drop
      (scheme.length + 3) = withSlashes (authority ++ rest) := by
    rw [← drop_drop, drop_left]
    rfl
  rw [text, shape, fromPath, found]
  dsimp only
  rw [take_left, if_pos http, behind]
  have front : ∀ byte ∈ authority ++ rest.takeWhile (fun byte => !isSlash byte),
      isSlash byte = false := by
    intro byte member
    rcases mem_append.mp member with inHost | inRest
    · exact (host byte inHost).1
    · simpa using mem_takeWhile_imp inRest
  have noSlash := not_mem_withSlashes_of_noSlash front
  have regroup
      : withSlashes (authority ++ rest)
        = withSlashes (authority ++ rest.takeWhile fun byte => !isSlash byte)
          ++ withSlashes (rest.dropWhile fun byte => !isSlash byte) := by
    rw [withSlashes, withSlashes, withSlashes, ← map_append, append_assoc,
      takeWhile_append_dropWhile]
  generalize withSlashes (authority ++ rest.takeWhile fun byte => !isSlash byte) = clean
    at noSlash regroup
  have missing : clean.findIdx? (· == 47) = none := by
    rw [findIdx?_eq_none_iff]
    intro byte member
    simpa using fun same : byte = 47 => noSlash (same ▸ member)
  rw [regroup, findIdx?_append, missing]
  cases tail : rest.dropWhile fun byte => !isSlash byte with
  | nil => rfl
  | cons slash back =>
    have isSlash : isSlash slash = true := by
      simpa [tail] using head?_dropWhile_not (fun byte => !isSlash byte) rest
    have here : (withSlashes (slash :: back)).findIdx? (· == 47) = some 0 := by
      rw [withSlashes, map_cons, findIdx?_cons, (withSlashes_byte slash).2, isSlash]
      rfl
    rw [here, if_neg (cons_ne_nil _ _)]
    simp

theorem normalizeRequestTarget_text
    : normalizeRequestTarget target.text
      = joinPath (normalizedComponents ((withSlashes target.slashed).splitOn 47)) := by
  have slash : 47 ∈ target.text :=
    mem_append_right _ (mem_append_left _ (mem_cons_of_mem _ mem_cons_self))
  rw [normalizeRequestTarget_eq, fromPath_text]
  · split
    · next empty =>
      rw [slashed, empty]
      rfl
    · rw [cutPath_withSlashes, slashed]
  · intro star
    rw [star] at slash
    revert slash
    decide
  · exact fun form => form.2.1 slash

theorem normalizeRequestTarget_path (origin : ∀ byte ∈ target.rest.head?, isSlash byte = true)
    : normalizeRequestTarget target.path
      = joinPath (normalizedComponents ((withSlashes target.path).splitOn 47)) := by
  cases shape : target.path with
  | nil => decide +kernel
  | cons first more =>
    have leads : target.rest.head? = some first := by
      cases whole : target.rest with
      | nil => simp [path, whole] at shape
      | cons head tail =>
        rw [path, whole, takeWhile_cons] at shape
        split at shape
        · rw [(cons.inj shape).1]
          rfl
        · cases shape
    have slash := origin first leads
    have cut : cutPath (withSlashes (first :: more)) = withSlashes (first :: more) := by
      rw [cutPath_withSlashes, ← shape, path, takeWhile_takeWhile]
      simp
    have whole : fromPath (withSlashes (first :: more)) = withSlashes (first :: more) := by
      have front := (withSlashes_byte first).2
      rw [slash, beq_iff_eq] at front
      rw [withSlashes, map_cons, front, fromPath_slash]
    rw [normalizeRequestTarget_eq, whole, cut]
    · rintro star
      cases star
      cases slash
    · intro form
      rw [isSlash, Bool.or_eq_true, beq_iff_eq, beq_iff_eq] at slash
      rcases slash with rfl | rfl
      · exact form.2.1 mem_cons_self
      · exact form.2.2.1 mem_cons_self

end AbsoluteTarget

/-- An absolute target is normalised to its path, except where its query or fragment is
taken for one.
-/
theorem normalize_absolute_target_iff (target : AbsoluteTarget)
    : normalizeRequestTarget target.text = normalizeRequestTarget target.path
      ↔ ¬ target.NamesPathInQuery := by
  rw [target.normalizeRequestTarget_text]
  by_cases query : ∃ byte ∈ target.rest.head?, endsPath byte = true
  · obtain ⟨byte, leads, ends⟩ := query
    have empty : target.path = [] := by
      obtain ⟨more, shape⟩ := List.head?_eq_some_iff.mp leads
      rw [AbsoluteTarget.path, shape, List.takeWhile_cons, ends]
      rfl
    have root : normalizeRequestTarget [] = joinPath [] := by decide +kernel
    rw [empty, root, AbsoluteTarget.NamesPathInQuery, ← length_normalizedComponents]
    cases names : normalizedComponents ((withSlashes target.slashed).splitOn 47) with
    | nil => simp
    | cons first more =>
      have member : first ∈ normalizedComponents ((withSlashes target.slashed).splitOn 47) := by
        rw [names]
        exact List.mem_cons_self
      have nonempty := List.length_pos_iff.mpr (mem_normalizedComponents member).2.nonempty
      refine iff_of_false (fun same => ?_) fun absent => absent ⟨⟨byte, leads, ends⟩, nofun⟩
      have lengths := congrArg List.length same
      rw [joinPath_eq (List.cons_ne_nil _ _), List.flatMap_cons, List.length_append,
        List.length_cons] at lengths
      have short : (joinPath []).length = 1 := by decide
      omega
  · have origin : ∀ byte ∈ target.rest.head?, isSlash byte = true := fun byte leads =>
      (target.delimited byte leads).resolve_right fun ends => query ⟨byte, leads, ends⟩
    have same : target.slashed = target.path := by
      rw [AbsoluteTarget.slashed, AbsoluteTarget.path]
      cases shape : target.rest with
      | nil => rfl
      | cons first more =>
        have slash := origin first (by rw [shape]; rfl)
        rw [List.dropWhile_cons, slash]
        rfl
    rw [target.normalizeRequestTarget_path origin, same]
    exact iff_of_true rfl fun strays => query strays.1

/-- The value of a query is taken for the path. -/
theorem normalize_absolute_target_query
    : normalizeRequestTarget (ascii "http://host?x=/a") = ascii "/a"
      ∧ normalizeRequestTarget [] = ascii "/" := by
  decide +kernel

end NetTrap.Http
