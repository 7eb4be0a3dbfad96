import NetTrap.Redis.Parser
import NetTrap.TcpFraming.Redis

/-! RESP arrays of bulk strings: their grammar, and that the framer and the handler, each
with code of its own, read exactly the arrays of this grammar.
-/

namespace NetTrap.Redis

open Access Framing Search Rust TcpFraming List Option

/-! Numbers. -/

/-- Decimal digits that stand for a number; leading zeroes are read over. -/
structure Spells (digits : Bytes) (number : Nat) : Prop where
  nonempty : digits ≠ []
  decimal : ∀ byte ∈ digits, isAsciiDigit byte = true
  value : decimalValue digits = number
  fits : number ≤ usizeMax

variable {digits : Bytes} {number : Nat}

theorem spells_numeral (fits : number ≤ usizeMax) : Spells (numeral 10 number) number :=
  ⟨numeral_ne_nil 10 number, fun _ => isAsciiDigit_of_mem_numeral, decimalValue_numeral number,
    fits⟩

theorem parseDecimal_eq_some
    : (if digits.isEmpty || !digits.all isAsciiDigit then none else parseDecimalUsize digits)
        = some number
      ↔ Spells digits number := by
  constructor
  · intro parsed
    split at parsed
    · cases parsed
    · next plain =>
      simp only [Bool.or_eq_true, not_or, List.isEmpty_iff, Bool.not_eq_true', Bool.not_eq_false,
        List.all_eq_true] at plain
      rw [parseDecimalUsize] at parsed
      split at parsed
      · next small =>
        cases parsed
        exact ⟨plain.1, plain.2, rfl, small⟩
      · cases parsed
  · rintro ⟨nonempty, decimal, rfl, fits⟩
    rw [if_neg, parseDecimalUsize, if_pos fits]
    simp only [Bool.or_eq_true, not_or, List.isEmpty_iff, Bool.not_eq_true', Bool.not_eq_false,
      List.all_eq_true]
    exact ⟨nonempty, decimal⟩

theorem arrayCount_eq_some
    : TcpFraming.parseRespArrayCount digits = some number ↔ Spells digits number :=
  parseDecimal_eq_some

theorem bulkLen_eq_some
    : TcpFraming.parseRespBulkLen digits = some (some number) ↔ Spells digits number := by
  rw [← parseDecimal_eq_some, TcpFraming.parseRespBulkLen]
  split
  · next absent =>
    rw [beq_iff_eq.mp absent]
    simp [ascii, isAsciiDigit]
  · split <;> simp

section

variable (spelled : Spells digits number)
include spelled

theorem Spells.byte_lt {byte} (member : byte ∈ digits) : byte < 0x80 := by
  have digit := spelled.decimal byte member
  simp only [isAsciiDigit, Bool.and_eq_true, decide_eq_true_eq] at digit
  exact UInt8.lt_of_le_of_lt digit.2 (by decide)

theorem Spells.noBreak : 13 ∉ digits := by
  intro member
  exact absurd (spelled.decimal 13 member) (by decide)

theorem Spells.fromUtf8 : fromUtf8 digits = some digits :=
  fromUtf8_ascii fun _ => spelled.byte_lt

end

/-! Arrays. -/

/-- Bulk strings, one after the other. -/
inductive BulkStrings : (args : List Bytes) → (body : Bytes) → Prop where
  | nil : BulkStrings [] []
  | cons {digits arg args body} (spelled : Spells digits arg.length)
    (small : arg.length ≤ maxRedisBulkSize) (rest : BulkStrings args body)
    : BulkStrings (arg :: args) (36 :: digits ++ crlf ++ (arg ++ crlf ++ body))

/-- An array of one or more bulk strings. -/
structure RespArray (args : List Bytes) (frame : Bytes) : Prop where
  nonempty : args ≠ []
  few : args.length ≤ maxRedisArrayCount
  written : ∃ digits body, Spells digits args.length ∧ BulkStrings args body
    ∧ frame = 42 :: digits ++ crlf ++ body

/-- The middle one of three parts, by its positions. -/
theorem middle_eq {data front middle back : Bytes} {start stop : Nat}
    (layout : data = front ++ (middle ++ back)) (starts : start = front.length)
    (stops : stop = front.length + middle.length)
    : (data.take stop).drop start = middle := by
  rw [layout, starts, stops, ← append_assoc, ← length_append, take_left, drop_left]

/-- At `pos` stands a header: a marker, the digits of a number, and a line break. -/
structure HeaderAt (marker : UInt8) (digits data : Bytes) (pos : Nat) : Prop where
  marked : data[pos]? = some marker
  found : TcpFraming.findCrlfFrom data pos = some (pos + (1 + digits.length))
  text : (data.take (pos + (1 + digits.length))).drop (pos + 1) = digits
  inside : pos + (1 + digits.length) + 2 ≤ data.length

theorem headerAt {marker} (notBreak : marker ≠ 13) (spelled : Spells digits number)
    (before after : Bytes)
    : HeaderAt marker digits (before ++ (marker :: digits ++ crlf ++ after)) before.length := by
  have absent : 13 ∉ marker :: digits := by
    rw [mem_cons, not_or]
    exact ⟨Ne.symm notBreak, spelled.noBreak⟩
  have parts : before ++ (marker :: digits ++ crlf ++ after)
      = before ++ [marker] ++ (digits ++ (crlf ++ after)) := by
    simp
  refine ⟨by simp, ?_, middle_eq parts (by simp) (by simp; omega), by simp [crlf]; omega⟩
  rw [TcpFraming.findCrlfFrom, if_pos (by simp), drop_left, append_assoc, crlf,
    findSub_skip absent, findSub_self, map_some, map_some, length_cons]
  congr 2
  omega

section Header

variable {marker : UInt8} {data : Bytes} {pos : Nat} (header : HeaderAt marker digits data pos)

include header

theorem HeaderAt.getD : data.getD pos 0 = marker := by
  rw [getD_eq_getElem?_getD, header.marked]
  rfl

theorem HeaderAt.headerText (spelled : Spells digits number)
    : TcpFraming.headerText data pos (pos + (1 + digits.length)) = some digits := by
  rw [TcpFraming.headerText, header.text, spelled.fromUtf8]

theorem HeaderAt.slice : slice data (pos + 1) (pos + (1 + digits.length)) = .done digits := by
  have inside := header.inside
  rw [slice_of_le (by omega) (by omega), header.text]

end Header

/-! Bulk strings. -/

/-- At `pos` stands a bulk string. -/
structure BulkAt (digits arg data : Bytes) (pos : Nat) : Prop
    extends HeaderAt 36 digits data pos where
  content : (data.take (pos + (1 + digits.length) + 2 + arg.length)).drop
    (pos + (1 + digits.length) + 2) = arg
  closing : (data.take (pos + (1 + digits.length) + 2 + arg.length + 2)).drop
    (pos + (1 + digits.length) + 2 + arg.length) = crlf
  whole : pos + (1 + digits.length) + 2 + arg.length + 2 ≤ data.length

theorem bulkAt (spelled : Spells digits number) (before arg after : Bytes)
    : BulkAt digits arg (before ++ (36 :: digits ++ crlf ++ (arg ++ crlf ++ after)))
        before.length := by
  have contentParts : before ++ (36 :: digits ++ crlf ++ (arg ++ crlf ++ after))
      = before ++ (36 :: digits ++ crlf) ++ (arg ++ (crlf ++ after)) := by
    simp
  have closingParts : before ++ (36 :: digits ++ crlf ++ (arg ++ crlf ++ after))
      = before ++ (36 :: digits ++ crlf ++ arg) ++ (crlf ++ after) := by
    simp
  refine ⟨headerAt (by decide) spelled before _,
    middle_eq contentParts ?_ ?_, middle_eq closingParts ?_ ?_, ?_⟩
  all_goals
    simp [crlf]
    omega

theorem bulk_append {before digits arg body after : Bytes}
    : before ++ (36 :: digits ++ crlf ++ (arg ++ crlf ++ body) ++ after)
      = before ++ (36 :: digits ++ crlf ++ (arg ++ crlf ++ (body ++ after))) := by
  simp

theorem append_bulk {before digits arg body : Bytes}
    : before ++ (36 :: digits ++ crlf ++ (arg ++ crlf ++ body))
      = before ++ (36 :: digits ++ crlf ++ (arg ++ crlf)) ++ body := by
  simp

theorem length_bulk (before digits arg : Bytes)
    : (before ++ (36 :: digits ++ crlf ++ (arg ++ crlf))).length
      = before.length + (1 + digits.length) + 2 + arg.length + 2 := by
  simp [crlf]
  omega

section Bulk

variable {arg data : Bytes} {pos remaining : Nat} (bulk : BulkAt digits arg data pos)
  (spelled : Spells digits arg.length) (small : arg.length ≤ maxRedisBulkSize)

include bulk spelled small

/-- The framer reads a bulk string and goes on behind it. -/
theorem BulkAt.redisBulkDecision
    (fits : pos + (1 + digits.length) + 2 + arg.length + 2 ≤ maxRedisFrameSize)
    : TcpFraming.redisBulkDecision data (remaining + 1) pos
      = TcpFraming.redisBulkDecision data remaining
          (pos + (1 + digits.length) + 2 + arg.length + 2) := by
  have whole := bulk.whole
  simp only [TcpFraming.redisBulkDecision, bulk.getD, bulk.found, bulk.headerText spelled,
    bind_some, bulkLen_eq_some.mpr spelled, bulk.closing]
  rw [if_neg (by omega), if_neg (by decide), if_neg (by omega), if_neg (by omega),
    if_neg (by omega), if_neg (by decide)]

/-- The handler reads a bulk string and goes on behind it. -/
theorem BulkAt.respBulkLoop {parts} (fits : data.length ≤ maxRespFrameSize)
    : Redis.respBulkLoop data (remaining + 1) pos parts
      = Redis.respBulkLoop data remaining (pos + (1 + digits.length) + 2 + arg.length + 2)
          (parts ++ [arg]) := by
  have whole := bulk.whole
  have found : findCrlfFrom data pos = some (pos + (1 + digits.length)) := bulk.found
  have parsed : parseRespBulkLen digits = some (some arg.length) := bulkLen_eq_some.mpr spelled
  have sizes : maxRespBulkSize = maxRedisBulkSize ∧ maxRespFrameSize ≤ usizeMax := by decide
  rw [Redis.respBulkLoop]
  simp only [bulk.marked, ne_eq, not_true_eq_false, if_false, found, bulk.slice, Exec.done_bind,
    spelled.fromUtf8, parsed]
  rw [if_neg (by omega), checkedAdd_of_le (by omega)]
  simp only
  rw [checkedAdd_of_le (by omega)]
  simp only
  rw [if_neg (by omega), slice_of_le (by omega) (by omega), bulk.closing, Exec.done_bind,
    if_neg (by decide), slice_of_le (by omega) (by omega), bulk.content, Exec.done_bind]

end Bulk

section BulkStrings

variable {args : List Bytes} {body before after : Bytes} (bulks : BulkStrings args body)

include bulks

theorem BulkStrings.redisBulkDecision (fits : (before ++ body).length ≤ maxRedisFrameSize)
    : TcpFraming.redisBulkDecision (before ++ (body ++ after)) args.length before.length
      = .take (before ++ body).length := by
  induction bulks generalizing before with
  | nil =>
    rw [append_nil]
    rfl
  | @cons digits arg args body spelled small rest ih =>
    rw [append_bulk] at fits ⊢
    have inside := fits
    rw [length_append, length_bulk] at inside
    rw [length_cons, bulk_append,
      (bulkAt spelled before arg _).redisBulkDecision spelled small (by omega), ← length_bulk,
      ← ih fits]
    congr 1
    simp

theorem BulkStrings.respBulkLoop {parts}
    (fits : (before ++ (body ++ after)).length ≤ maxRespFrameSize)
    : Redis.respBulkLoop (before ++ (body ++ after)) args.length before.length parts
      = .done (some (parts ++ args, (before ++ body).length)) := by
  induction bulks generalizing before parts with
  | nil =>
    rw [append_nil, append_nil]
    rfl
  | @cons digits arg args body spelled small rest ih =>
    rw [bulk_append] at fits ⊢
    rw [length_cons, (bulkAt spelled before arg _).respBulkLoop spelled small fits, ← length_bulk]
    rw [append_bulk] at fits ⊢
    rw [ih fits]
    simp

end BulkStrings

theorem drop_eq_append {start stop} (ordered : start ≤ stop) (data : Bytes)
    : data.drop start = (data.take stop).drop start ++ data.drop stop := by
  have later : data.drop stop = (data.drop start).drop (stop - start) := by
    rw [drop_drop, Nat.add_sub_cancel' ordered]
  rw [drop_take, later, take_append_drop]

theorem findCrlfFrom_crlf {haystack start found}
    (located : TcpFraming.findCrlfFrom haystack start = some found)
    : (haystack.take (found + 2)).drop found = crlf := by
  have bounds := findCrlfFrom_bounds located
  rw [TcpFraming.findCrlfFrom, if_pos (by omega)] at located
  obtain ⟨offset, searched, rfl⟩ := map_eq_some_iff.mp located
  obtain ⟨rest, here⟩ := findSub_occurs searched
  rw [drop_drop] at here
  rw [drop_take, ← here, Nat.add_sub_cancel_left]
  rfl

/-- Whatever the framer takes is bulk strings. Witness: induction on the strings still to
read; each accepted string is taken apart at its line breaks.
-/
theorem bulkStrings_of_take {buffer remaining pos length}
    (taken : TcpFraming.redisBulkDecision buffer remaining pos = .take length)
    (inside : pos ≤ buffer.length)
    : ∃ args body rest, args.length = remaining ∧ BulkStrings args body
        ∧ buffer.drop pos = body ++ rest ∧ length = pos + body.length := by
  fun_induction TcpFraming.redisBulkDecision buffer remaining pos with
  | case1 =>
    cases taken
    exact ⟨[], [], buffer.drop length, rfl, .nil, rfl, rfl⟩
  | case9 remaining pos before marked headerEnd located bulkLen parsed framePos small fits
      arrived closing ih =>
    have marker : buffer.getD pos 0 = 36 := by simpa using marked
    have after := findCrlfFrom_after located (by rw [marker]; decide)
    have bounds := findCrlfFrom_bounds located
    obtain ⟨text, header, announced⟩ := bind_eq_some_iff.mp parsed
    have digits := fromUtf8_eq header
    have spelled := bulkLen_eq_some.mp announced
    obtain ⟨args, body, rest, count, bulks, tail, total⟩ := ih taken (by omega)
    have marker : (buffer.take (pos + 1)).drop pos = [36] := by
      rw [drop_take, Nat.add_sub_cancel_left, take_one, head?_drop]
      rw [getD_eq_getElem?_getD] at marker
      rw [getElem?_eq_getElem (by omega)] at marker ⊢
      simpa using marker
    have closed : (buffer.take (headerEnd + 2 + bulkLen + 2)).drop (headerEnd + 2 + bulkLen)
        = crlf := by
      simpa using closing
    let arg := (buffer.take (headerEnd + 2 + bulkLen)).drop (headerEnd + 2)
    have argLength : arg.length = bulkLen := by
      simp [arg]
      omega
    refine ⟨arg :: args, 36 :: text ++ crlf ++ (arg ++ crlf ++ body), rest, ?_, ?_, ?_, ?_⟩
    · rw [length_cons, count]
    · rw [← argLength] at spelled small
      exact .cons spelled (by omega) bulks
    · rw [drop_eq_append (show pos ≤ pos + 1 by omega) buffer,
        drop_eq_append (show pos + 1 ≤ headerEnd by omega) buffer,
        drop_eq_append (show headerEnd ≤ headerEnd + 2 by omega) buffer,
        drop_eq_append (show headerEnd + 2 ≤ headerEnd + 2 + bulkLen by omega) buffer,
        drop_eq_append (show headerEnd + 2 + bulkLen ≤ headerEnd + 2 + bulkLen + 2 by omega)
          buffer, marker, ← digits, findCrlfFrom_crlf located, closed, tail]
      simp [arg]
    · have textLength : text.length = headerEnd - (pos + 1) := by
        simp [digits]
        omega
      simp [crlf, argLength, textLength, total]
      omega
  | case2 | case3 | case4 | case5 | case6 | case7 | case8 | case10 => cases taken

/-! Frames. -/

variable {args : List Bytes} {frame : Bytes}

/-- The framer takes an array off the front of a stream. -/
theorem RespArray.redisDecision (array : RespArray args frame) {after}
    (fits : (frame ++ after).length ≤ maxRedisFrameSize)
    : TcpFraming.redisDecision (frame ++ after) = .take frame.length := by
  obtain ⟨digits, body, spelled, bulks, rfl⟩ := array.written
  have positive : 0 < args.length := length_pos_iff.mpr array.nonempty
  have few := array.few
  have inside : (42 :: digits ++ crlf ++ body).length ≤ maxRedisFrameSize := by
    rw [length_append] at fits
    omega
  have decided : TcpFraming.redisBulkDecision (42 :: digits ++ crlf ++ (body ++ after)) args.length
      (42 :: digits ++ crlf).length = .take (42 :: digits ++ crlf ++ body).length :=
    bulks.redisBulkDecision inside
  have header : HeaderAt 42 digits (42 :: digits ++ crlf ++ (body ++ after)) 0 :=
    headerAt (by decide) spelled [] _
  have found := header.found
  have text := header.headerText spelled
  rw [Nat.zero_add] at found text
  have start : 1 + digits.length + 2 = (42 :: digits ++ crlf).length := by
    simp [crlf]
    omega
  have nonempty : (42 :: digits ++ crlf ++ (body ++ after)).isEmpty = false := rfl
  have counted : (args.length == 0) = false := by
    rw [beq_eq_false_iff_ne]
    omega
  rw [append_assoc] at fits ⊢
  rw [TcpFraming.redisDecision, nonempty, if_neg (by decide), if_neg (by omega), header.getD,
    if_pos (by decide), redisArrayDecision, found]
  simp only [text, bind_some, arrayCount_eq_some.mpr spelled, counted]
  rw [if_neg (by decide), if_neg (by omega), start, decided]

/-- A frame that is taken and starts with `*` is an array. -/
theorem respArray_of_take {buffer length} (taken : TcpFraming.redisDecision buffer = .take length)
    (starred : buffer.head? = some 42)
    : ∃ args, RespArray args (buffer.take length) := by
  obtain ⟨tail, rfl⟩ := head?_eq_some_iff.mp starred
  have bounded := take_of_guard (take_of_wait taken)
  rw [if_pos (by rfl), redisArrayDecision] at bounded
  split at bounded
  · cases bounded
  next headerEnd located =>
  have notBreak : (42 :: tail).getD 0 0 ≠ 13 := show (42 : UInt8) ≠ 13 by decide
  have after := findCrlfFrom_after located notBreak
  have bounds := findCrlfFrom_bounds located
  split at bounded
  · next count parsed =>
    obtain ⟨text, header, announced⟩ := bind_eq_some_iff.mp parsed
    have digits := fromUtf8_eq header
    have spelled := arrayCount_eq_some.mp announced
    split at bounded
    · cases bounded
    split at bounded
    · cases bounded
    next positive few =>
    obtain ⟨args, body, rest, rfl, bulks, remainder, rfl⟩ :=
      bulkStrings_of_take bounded bounds.2
    refine ⟨args, ?_, by omega, text, body, spelled, bulks, ?_⟩
    · rintro rfl
      exact positive rfl
    · have parts : 42 :: tail = 42 :: text ++ crlf ++ body ++ rest := by
        rw [← drop_zero (l := 42 :: tail), drop_eq_append (Nat.zero_le 1) (42 :: tail),
          drop_eq_append (show 1 ≤ headerEnd by omega) (42 :: tail),
          drop_eq_append (show headerEnd ≤ headerEnd + 2 by omega) (42 :: tail),
          ← digits, findCrlfFrom_crlf located, remainder]
        simp
      have textLength : text.length = headerEnd - 1 := by
        rw [digits, length_drop, length_take]
        omega
      have cut : headerEnd + 2 + body.length = (42 :: text ++ crlf ++ body).length := by
        simp [crlf, textLength]
        omega
      rw [cut, parts, take_left]
  · cases bounded

/-- The handler reads an array as one command, wherever it stands. -/
theorem RespArray.parseRespArrayAt (array : RespArray args frame) {before after}
    (fits : (before ++ (frame ++ after)).length ≤ maxRespFrameSize)
    : Redis.parseRespArrayAt (before ++ (frame ++ after)) before.length
      = .done (some (args, before.length + frame.length)) := by
  obtain ⟨digits, body, spelled, bulks, rfl⟩ := array.written
  have positive : 0 < args.length := length_pos_iff.mpr array.nonempty
  have few := array.few
  have layout : before ++ (42 :: digits ++ crlf ++ body ++ after)
      = before ++ (42 :: digits ++ crlf ++ (body ++ after)) := by
    rw [append_assoc _ body after]
  rw [layout] at fits ⊢
  have header : HeaderAt 42 digits _ before.length :=
    headerAt (by decide) spelled before (body ++ after)
  have found : findCrlfFrom _ before.length = some (before.length + (1 + digits.length)) :=
    header.found
  have start : before.length + (1 + digits.length) + 2
      = (before ++ (42 :: digits ++ crlf)).length := by
    simp [crlf]
    omega
  have looped : Redis.respBulkLoop (before ++ (42 :: digits ++ crlf ++ (body ++ after))) args.length
      (before ++ (42 :: digits ++ crlf)).length []
      = .done (some (args, before.length + (42 :: digits ++ crlf ++ body).length)) := by
    rw [← append_assoc before] at fits ⊢
    rw [bulks.respBulkLoop fits, nil_append, append_assoc before, length_append]
  have parsed : parseRespArrayCount digits = some args.length := arrayCount_eq_some.mpr spelled
  have counted : (args.length == 0) = false := by
    rw [beq_eq_false_iff_ne]
    omega
  have limit : maxRespArrayCount = maxRedisArrayCount := rfl
  rw [Redis.parseRespArrayAt]
  simp only [found, header.slice, Exec.done_bind, spelled.fromUtf8, parsed, counted]
  rw [if_neg (by decide), if_neg (by omega), start, looped]

/-- The loop of the handler reads arrays as commands, up to its limit on them.
Witness: induction on the commands; each array starts with its marker and is read as a whole.
-/
theorem parseRespLoop_arrays {write commands}
    (written : ∀ args ∈ commands, RespArray args (write args)) {before budget read}
    (fits : (before ++ commands.flatMap write).length ≤ maxRespFrameSize)
    (enough : (commands.flatMap write).length < budget) (few : read.length ≤ maxRespCommands)
    : parseRespLoop (before ++ commands.flatMap write) budget before.length read
      = .done (if read.length + commands.length ≤ maxRespCommands then some (read ++ commands)
          else none) := by
  induction commands generalizing before budget read with
  | nil =>
    obtain ⟨budget, rfl⟩ : ∃ less, budget = less + 1 := ⟨budget - 1, by omega⟩
    rw [flatMap_nil, append_nil, parseRespLoop, if_pos (Nat.le_refl _),
      length_nil, Nat.add_zero, if_pos few, append_nil]
    rfl
  | cons args commands ih =>
    have array := written args mem_cons_self
    have later := fun other member => written other (mem_cons_of_mem args member)
    obtain ⟨tail, shape⟩ : ∃ tail, write args = 42 :: tail := by
      obtain ⟨digits, body, _, _, layout⟩ := array.written
      exact ⟨digits ++ crlf ++ body, layout⟩
    rw [flatMap_cons] at fits enough ⊢
    have total : (before ++ (write args ++ commands.flatMap write)).length
        = before.length + ((write args).length + (commands.flatMap write).length) := by
      rw [length_append, length_append]
    have long : (write args).length = tail.length + 1 := by
      rw [shape, length_cons]
    have pushed : pushCommand read args
        = if read.length ≥ maxRespCommands then none else some (read ++ [args]) := by
      rw [pushCommand, if_neg (by simpa using array.nonempty)]
    have noBreak : ∀ budget, skipCrlf (before ++ (write args ++ commands.flatMap write)) budget
        before.length = before.length := by
      intro budget
      cases budget with
      | zero => rfl
      | succ budget =>
        rw [skipCrlf, if_neg]
        simp [getRange, drop_take, shape, crlf]
    have first : item (before ++ (write args ++ commands.flatMap write)) before.length
        = .done 42 := by
      rw [item_of_lt (by omega)]
      simp [shape]
    obtain ⟨budget, rfl⟩ : ∃ less, budget = less + 1 := ⟨budget - 1, by omega⟩
    rw [length_append] at enough
    rw [parseRespLoop, if_neg (by omega)]
    simp only [noBreak]
    rw [if_neg (by omega), first, Exec.done_bind, if_pos (by decide), array.parseRespArrayAt fits]
    simp only [Exec.done_bind, pushed]
    by_cases full : read.length ≥ maxRespCommands
    · rw [if_pos full, if_neg (by rw [length_cons]; omega)]
      rfl
    · have onward : parseRespLoop (before ++ write args ++ commands.flatMap write) budget
          (before ++ write args).length (read ++ [args]) = _ :=
        ih later (by rw [append_assoc]; exact fits) (by omega)
          (by rw [length_append, length_singleton]; omega)
      rw [append_assoc, length_append] at onward
      simp only [if_neg full, onward]
      simp [Nat.add_assoc, Nat.add_comm 1]

/-- The handler reads arrays as exactly their commands, unless there are too many. -/
theorem parseResp_arrays {write commands} (written : ∀ args ∈ commands, RespArray args (write args))
    (fits : (commands.flatMap write).length ≤ maxRespFrameSize)
    : Redis.parseResp (commands.flatMap write)
      = .done (if commands.length ≤ maxRespCommands then some commands else none) := by
  have looped : parseRespLoop ([] ++ commands.flatMap write) ((commands.flatMap write).length + 1)
      ([] : Bytes).length [] = _ :=
    parseRespLoop_arrays written fits (Nat.lt_succ_self _) (Nat.zero_le _)
  simp only [nil_append, length_nil, Nat.zero_add] at looped
  rw [Redis.parseResp, if_neg (by omega), looped]

/-- The handler reads a frame that is an array as exactly that one command. -/
theorem RespArray.parseResp (array : RespArray args frame)
    (fits : frame.length ≤ maxRespFrameSize)
    : Redis.parseResp frame = .done (some [args]) := by
  have whole : [args].flatMap (fun _ => frame) = frame := by
    simp
  have parsed : Redis.parseResp ([args].flatMap fun _ => frame) = _ :=
    parseResp_arrays (by simpa using array) (by rw [whole]; exact fits)
  rw [whole] at parsed
  rw [parsed, length_singleton, if_pos (by decide)]

end NetTrap.Redis
