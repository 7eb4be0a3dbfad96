import NetTrap.Ldap.Handler

/-! What the LDAP parsers read: elements at a cursor below a limit. -/

namespace NetTrap.Ldap

open Access Rust Ber List Option

theorem maxBerLength_lt : maxBerLength < 256 ^ 4 := by
  decide

theorem parseBerLength_reads : ReadsLength maxBerLength parseBerLength := by
  apply decodeBerLength_reads (by decide)
  intro len _
  exact decide_eq_true_iff

/-- The positions and limits a parser may be given. -/
structure Within (data : Bytes) (limit : Nat) : Prop where
  inside : limit ≤ data.length
  low : limit ≤ 2 ^ 32

section Consuming

variable {data tail : Bytes} {pos limit : Nat} (within : Within data limit)
  (cursor : Cursor (data.take limit) pos tail)
include within cursor

theorem bounds_finds
    : (valueBounds parseBerLength data pos limit).Finds (readValue maxBerLength tail)
        fun bounds read => ∃ start, bounds = (start, start + read.1.length)
          ∧ Cursor (data.take limit) start (read.1 ++ read.2) := by
  have low := within.low
  have length := cursor.length_below within.inside
  exact valueBounds_finds parseBerLength_reads maxBerLength_lt within.inside cursor (by omega)

/-- The tests before an element with a given tag. -/
theorem element_finds {β γ : Type} {parser : Exec (Option β)} {behind : Bytes × Bytes → Option γ}
    {related : β → γ → Prop} {tag : UInt8}
    (found : ∀ {rest}, Cursor (data.take limit) (pos + 1) rest
      → parser.Finds ((readValue maxBerLength rest).bind behind) related)
    : (if pos ≥ limit then pure none
        else item data pos >>= fun first => if first != tag then pure none else parser).Finds
        ((readTlv maxBerLength tag tail).bind behind) related := by
  cases tail with
  | nil =>
    rw [if_pos ((cursor.limit_le_iff within.inside).mpr rfl)]
    exact .nothing
  | cons first tail =>
    rw [if_neg ((cursor.limit_le_iff within.inside).not.mpr (cons_ne_nil _ _)),
      cursor.item_below within.inside, Exec.done_bind, readTlv]
    by_cases tagged : first = tag
    · rw [if_neg (by simpa using tagged), if_pos tagged]
      exact found cursor.next
    · rw [if_pos (by simpa using tagged), if_neg tagged]
      exact .nothing

theorem consumeExpectedTlvValue_finds (tag : UInt8)
    : (consumeExpectedTlvValue data pos limit tag).Finds (readTlv maxBerLength tag tail)
        fun found read =>
            ∃ next, found = (read.1, next) ∧ Cursor (data.take limit) next read.2 := by
  rw [← bind_fun_some (readTlv _ _ _)]
  refine element_finds within cursor fun after => (bounds_finds within after).bind rfl ?_
  rintro _ ⟨value, rest⟩ - ⟨start, rfl, behind⟩
  dsimp only
  rw [behind.getRange_below within.inside]
  exact .something ⟨_, rfl, behind.advance⟩

theorem consumeExpectedTlv_finds (tag : UInt8)
    : (consumeExpectedTlv data pos limit tag).Finds (readTlv maxBerLength tag tail)
        fun found read => Cursor (data.take limit) found.2 read.2 := by
  rw [← bind_fun_some (readTlv _ _ _)]
  refine element_finds within cursor fun after => (bounds_finds within after).bind rfl ?_
  rintro _ ⟨value, rest⟩ - ⟨start, rfl, behind⟩
  exact .something behind.advance

/-- An element of any tag is read if there is one below the limit. -/
theorem consumeAnyTlv_finds (ends : tail = [] → data.length ≤ limit)
    : (consumeAnyTlv data pos limit).Finds
        (tail.head?.bind fun tag => (readTlv maxBerLength tag tail).map fun read => (tag, read))
        fun found read => ∃ next, found = ((read.1, read.2.1), next)
          ∧ Cursor (data.take limit) next read.2.2 := by
  have length := cursor.length_below within.inside
  rw [consumeAnyTlv]
  cases tail with
  | nil =>
    have past := (ends rfl).trans ((cursor.limit_le_iff within.inside).mpr rfl)
    rw [getElem?_eq_none past]
    exact .nothing
  | cons tag tail =>
    have found := cursor.getElem?
    rw [length_cons] at length
    rw [getElem?_take_of_lt (by omega)] at found
    rw [found, head?_cons, bind_some, readTlv, if_pos rfl, map_eq_bind]
    refine (bounds_finds within cursor.next).bind rfl ?_
    rintro _ ⟨value, rest⟩ - ⟨start, rfl, behind⟩
    dsimp only
    rw [behind.getRange_below within.inside]
    exact .something ⟨_, rfl, behind.advance⟩

end Consuming

/-- The element that was read stands at the front. -/
theorem any_eq_some {tail value rest tag}
    (read : (tail.head?.bind fun tag => (readTlv maxBerLength tag tail).map fun read => (tag, read))
      = some (tag, value, rest))
    : tail = tlv tag value ++ rest ∧ value.length ≤ maxBerLength := by
  simp only [bind_eq_some_iff, map_eq_some_iff, Prod.mk.injEq] at read
  obtain ⟨_, -, _, read, rfl, rfl⟩ := read
  exact (readTlv_eq_some maxBerLength_lt).mp read

/-! Values are parsed as a whole, with their own length as the limit. -/

theorem Within.whole {value} (small : value.length ≤ maxBerLength) : Within value value.length :=
  ⟨Nat.le_refl _, small.trans (by decide)⟩

theorem wholeCursor (value : Bytes) : Cursor (value.take value.length) 0 value := by
  rw [take_length]
  exact .start value

/-! Filters. -/

/-- What a parser does with the first element of a value. -/
theorem firstTlv_finishes {value tail : Bytes} {pos : Nat} {β : Type}
    {next : Option ((UInt8 × Bytes) × Nat) → Exec β} (small : value.length ≤ maxBerLength)
    (cursor : Cursor (value.take value.length) pos tail) (missing : (next none).Finishes)
    (present : ∀ tag child rest pos, Cursor (value.take value.length) pos rest
      → tail = tlv tag child ++ rest → child.length ≤ maxBerLength
      → (next (some ((tag, child), pos))).Finishes)
    : (consumeAnyTlv value pos value.length >>= next).Finishes := by
  refine (consumeAnyTlv_finds (.whole small) cursor fun _ => Nat.le_refl _).finishes missing ?_
  rintro _ ⟨tag, child, rest⟩ read ⟨pos, rfl, behind⟩
  obtain ⟨shape, short⟩ := any_eq_some read
  exact present tag child rest pos behind shape short

theorem attributeValueAssertionFilter_finishes {value} (small : value.length ≤ maxBerLength)
    : (attributeValueAssertionFilterIsWellFormed value).Finishes := by
  refine firstTlv_finishes small (wholeCursor value) (.done _) fun _ sequence _ _ _ _ short => ?_
  refine .guard fun _ => ?_
  refine (consumeExpectedTlv_finds (.whole short) (wholeCursor sequence) 0x04).finishes (.done _)
    fun _ _ _ behind => ?_
  exact (consumeExpectedTlv_finds (.whole short) behind 0x04).finishes (.done _)
    fun _ _ _ _ => .done _

/-- Each round of the loop consumes an element, so that the bytes left bound the rounds. -/
theorem substringLoop_finishes {sequence tail fuel pos} (small : sequence.length ≤ maxBerLength)
    (cursor : Cursor (sequence.take sequence.length) pos tail) (enough : tail.length ≤ fuel)
    (saw : Bool)
    : (substringLoop sequence fuel pos saw).Finishes := by
  induction fuel generalizing pos tail saw with
  | zero =>
    have empty : tail = [] := length_eq_zero_iff.mp (Nat.le_zero.mp enough)
    have atEnd := (cursor.limit_le_iff (Nat.le_refl _)).mpr empty
    rw [substringLoop, if_neg (by omega)]
    exact .done _
  | succ fuel ih =>
    rw [substringLoop]
    refine .guard fun _ => ?_
    have here := cursor.getElem?
    rw [take_length] at here
    rw [here]
    cases tail with
    | nil => exact .done _
    | cons tag tail =>
      refine .guard fun _ => ?_
      refine (consumeExpectedTlv_finds (.whole small) cursor tag).finishes (.done _)
        fun _ ⟨value, rest⟩ read behind => ?_
      have shape := ((readTlv_eq_some maxBerLength_lt).mp read).1
      have size := congrArg length shape
      have element := length_add_two_le_tlv tag value
      rw [length_append] at size
      have fewer : rest.length ≤ fuel := by omega
      exact ih behind fewer true

theorem substringFilter_finishes {value} (small : value.length ≤ maxBerLength)
    : (substringFilterIsWellFormed value).Finishes := by
  refine firstTlv_finishes small (wholeCursor value) (.done _) fun _ sequence _ _ _ _ short => ?_
  refine .guard fun _ => ?_
  refine (consumeExpectedTlv_finds (.whole short) (wholeCursor sequence) 0x04).finishes (.done _)
    fun _ _ _ behind => ?_
  have length := behind.length
  rw [take_length] at length
  exact substringLoop_finishes short behind (by omega) false

theorem operandsLoop_finishes {child}
    (checks : ∀ tag {value : Bytes}, value.length ≤ maxBerLength → (child tag value).Finishes)
    {value tail fuel pos} (small : value.length ≤ maxBerLength)
    (cursor : Cursor (value.take value.length) pos tail) (enough : tail.length ≤ fuel) (saw : Bool)
    : (operandsLoop child value fuel pos saw).Finishes := by
  induction fuel generalizing pos tail saw with
  | zero =>
    have empty : tail = [] := length_eq_zero_iff.mp (Nat.le_zero.mp enough)
    have atEnd := (cursor.limit_le_iff (Nat.le_refl _)).mpr empty
    rw [operandsLoop, if_neg (by omega)]
    exact .done _
  | succ fuel ih =>
    rw [operandsLoop]
    refine .guard fun _ => ?_
    refine firstTlv_finishes small cursor (.done _) fun tag operand rest _ behind shape short => ?_
    refine .bind (checks tag short) fun valid _ => ?_
    refine .guard fun _ => ?_
    have size := congrArg length shape
    have element := length_add_two_le_tlv tag operand
    rw [length_append] at size
    exact ih behind (by omega) true

/-- Filters nest, and the depth bounds the recursion. -/
theorem filterIsWellFormed_finishes (levels : Nat) (tag : UInt8) {value}
    (small : value.length ≤ maxBerLength)
    : (filterIsWellFormed levels tag value).Finishes := by
  induction levels generalizing tag value with
  | zero => exact .done _
  | succ levels ih =>
    rw [filterIsWellFormed]
    refine .ite (fun _ => ?_) fun _ => ?_
    · refine .guard fun _ => ?_
      have length := (wholeCursor value).length
      rw [take_length] at length
      exact operandsLoop_finishes ih small (wholeCursor value) (by omega) false
    refine .ite (fun _ => ?_) fun _ => ?_
    · refine firstTlv_finishes small (wholeCursor value) (.done _) fun tag _ _ _ _ _ short => ?_
      exact .ite (fun _ => .done _) fun _ => ih tag short
    refine .guard fun _ => ?_
    refine .ite (fun _ => attributeValueAssertionFilter_finishes small) fun _ => ?_
    refine .ite (fun _ => attributeValueAssertionFilter_finishes small) fun _ => ?_
    refine .ite (fun _ => substringFilter_finishes small) fun _ => ?_
    exact .ite (fun _ => .done _) fun _ => .done _

end NetTrap.Ldap
