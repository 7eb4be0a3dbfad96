import NetTrap.Redis.Grammar
import NetTrap.TcpFraming.Segmentation

/-! Commands on the wire: a client writes them one after the other, the framer cuts the
stream, and the handler parses each frame on its own.
-/

namespace NetTrap.Redis

open Access Framing Rust TcpFraming List

/-- A bulk string as clients write it. -/
def encodeBulk (arg : Bytes) : Bytes :=
  36 :: numeral 10 arg.length ++ crlf ++ (arg ++ crlf)

/-- A command as clients write it: an array of bulk strings. -/
def encodeCommand (args : List Bytes) : Bytes :=
  42 :: numeral 10 args.length ++ crlf ++ args.flatMap encodeBulk

/-- The commands that the limits of the framer leave room for. -/
structure Encodable (args : List Bytes) : Prop where
  nonempty : args ≠ []
  few : args.length ≤ maxRedisArrayCount
  small : ∀ arg ∈ args, arg.length ≤ maxRedisBulkSize
  fits : (encodeCommand args).length ≤ maxRedisFrameSize

variable {args : List Bytes}

theorem bulkStrings_flatMap (small : ∀ arg ∈ args, arg.length ≤ maxRedisBulkSize)
    : BulkStrings args (args.flatMap encodeBulk) := by
  induction args with
  | nil => exact .nil
  | cons arg args ih =>
    have first : arg.length ≤ maxRedisBulkSize := small arg mem_cons_self
    have limit : maxRedisBulkSize ≤ usizeMax := by decide
    have later := ih fun other member => small other (.tail _ member)
    have layout : (arg :: args).flatMap encodeBulk
        = 36 :: numeral 10 arg.length ++ crlf ++ (arg ++ crlf ++ args.flatMap encodeBulk) := by
      simp [encodeBulk]
    rw [layout]
    exact .cons (spells_numeral (by omega)) first later

theorem Encodable.respArray (encodable : Encodable args) : RespArray args (encodeCommand args) := by
  have few := encodable.few
  have limit : maxRedisArrayCount ≤ usizeMax := by decide
  exact ⟨encodable.nonempty, few, _, _, spells_numeral (by omega),
    bulkStrings_flatMap encodable.small, rfl⟩

theorem Encodable.parseResp (encodable : Encodable args)
    : Redis.parseResp (encodeCommand args) = .done (some [args]) :=
  encodable.respArray.parseResp encodable.fits

section Streams

variable {commands : List (List Bytes)}

/-- The framer splits the first command off a stream of commands. -/
theorem Encodable.follow_redisDecision (encodable : Encodable args) {after : Bytes}
    (fits : (encodeCommand args ++ after).length ≤ maxRedisFrameSize)
    : follow redisDecision (encodeCommand args ++ after) = .frame (encodeCommand args) after := by
  rw [follow, encodable.respArray.redisDecision fits, Decision.cut, if_pos (by simp),
    take_left, drop_left]

/-- A stream within the limit is cut between its commands, by induction on them. -/
theorem drain_commands (encodable : ∀ args ∈ commands, Encodable args)
    (fits : (commands.flatMap encodeCommand).length ≤ maxRedisFrameSize)
    : (drain (follow redisDecision) (commands.flatMap encodeCommand)).frames
        = commands.map encodeCommand
      ∧ (drain (follow redisDecision) (commands.flatMap encodeCommand)).rest = some [] := by
  induction commands with
  | nil =>
    rw [flatMap_nil, drain_wait rfl]
    exact ⟨rfl, rfl⟩
  | cons args commands ih =>
    rw [flatMap_cons] at fits ⊢
    have split := (encodable args mem_cons_self).follow_redisDecision fits
    have shorter := follow_shorter redisDecision_positive split
    have later := ih (fun other member => encodable other (.tail _ member)) (by omega)
    rw [drain_frame split shorter]
    simp [Trace.after, later]

/-- A buffer beyond the limit is dropped as a whole, whatever it holds. -/
theorem drain_overfull {buffer : Bytes} (overfull : maxRedisFrameSize < buffer.length)
    : drain (follow redisDecision) buffer = ⟨[], [buffer], none⟩ := by
  have nonempty : buffer.isEmpty = false := by
    rw [isEmpty_eq_false_iff, ← length_pos_iff]
    omega
  have fails : follow redisDecision buffer = .fail (dropTooLarge none) := by
    rw [follow, redisDecision, nonempty, if_neg (by decide), if_pos overfull]
    rfl
  exact drain_fail fails

theorem drainFrames_redis (buffer : Bytes)
    : drainFrames extractRedisFrame (buffer.length + 1) buffer
      = .done (drain (follow redisDecision) buffer) :=
  drainFrames_eq extractRedisFrame_refines (follow_shorter redisDecision_positive)
      (Nat.lt_succ_self _)

theorem drainFrames_overfull {buffer : Bytes} (overfull : maxRedisFrameSize < buffer.length)
    : drainFrames extractRedisFrame (buffer.length + 1) buffer = .done ⟨[], [buffer], none⟩ := by
  rw [drainFrames_redis, drain_overfull overfull]

end Streams

/-- Every array that the framer completes is one command to the handler. -/
theorem parseResp_of_complete {buffer frame rest : Bytes}
    (completed : extractRedisFrame buffer = .done (.complete frame, rest))
    (starred : frame.head? = some 42)
    : ∃ args, args ≠ [] ∧ parseResp frame = .done (some [args]) := by
  obtain ⟨length, taken, inside, rfl, -⟩ :=
    Decision.cut_frame (extractRedisFrame_refines.complete completed)
  have bounded : buffer.length ≤ maxRedisFrameSize := by
    by_contra overfull
    have behind := take_of_wait taken
    rw [if_pos (by omega)] at behind
    cases behind
  have head : buffer.head? = some 42 := by
    rw [head?_take] at starred
    split at starred
    · cases starred
    · exact starred
  obtain ⟨args, array⟩ := respArray_of_take taken head
  refine ⟨args, array.nonempty, array.parseResp ?_⟩
  have limit : maxRespFrameSize = maxRedisFrameSize := rfl
  rw [length_take]
  omega

/-- Framer and handler agree on the commands of a stream. A stream of commands is cut into
one frame per command exactly when the buffer that holds it is within the framer's limit,
and the handler reads each frame as that command; conversely each array frame is one command.
Beyond the limit the buffer is dropped as a whole.
-/
theorem redis_commands_roundTrip
    : (∀ commands : List (List Bytes), commands ≠ [] → (∀ args ∈ commands, Encodable args)
        → ((∃ trace, drainFrames extractRedisFrame ((commands.flatMap encodeCommand).length + 1)
                (commands.flatMap encodeCommand) = .done trace
              ∧ trace.frames = commands.map encodeCommand ∧ trace.rest = some [])
            ↔ (commands.flatMap encodeCommand).length ≤ maxRedisFrameSize)
          ∧ ∀ args ∈ commands, parseResp (encodeCommand args) = .done (some [args]))
      ∧ (∀ buffer frame rest, extractRedisFrame buffer = .done (.complete frame, rest)
          → frame.head? = some 42
          → ∃ args, args ≠ [] ∧ parseResp frame = .done (some [args]))
      ∧ ∀ buffer : Bytes, maxRedisFrameSize < buffer.length
          → drainFrames extractRedisFrame (buffer.length + 1) buffer
            = .done ⟨[], [buffer], none⟩ := by
  refine ⟨?_, fun _ _ _ => parseResp_of_complete, fun _ => drainFrames_overfull⟩
  intro commands _ encodable
  refine ⟨⟨?_, ?_⟩, fun args member => (encodable args member).parseResp⟩
  · rintro ⟨trace, drained, -, left⟩
    by_contra overfull
    rw [drainFrames_overfull (by omega)] at drained
    cases drained
    cases left
  · intro fits
    exact ⟨_, drainFrames_redis _, drain_commands encodable fits⟩

/-- Arguments may hold line breaks and the markers themselves. -/
theorem redis_commands_roundTrip_binary
    : (∃ trace, drainFrames extractRedisFrame
          (([[[71, 69, 84], [13, 10, 42, 36]], [[]]].flatMap encodeCommand).length + 1)
          ([[[71, 69, 84], [13, 10, 42, 36]], [[]]].flatMap encodeCommand)
          = .done trace
        ∧ trace.frames = [[[71, 69, 84], [13, 10, 42, 36]], [[]]].map encodeCommand
        ∧ trace.rest = some [])
      ∧ ∃ args, args ≠ [] ∧ parseResp (encodeCommand [[42]]) = .done (some [args]) := by
  have encodable : ∀ args ∈ ([[[71, 69, 84], [13, 10, 42, 36]], [[]]] : List (List Bytes)),
      Encodable args := by
    intro args member
    rcases List.mem_pair.mp member with rfl | rfl
    · exact ⟨by decide, by decide, by decide, by decide +kernel⟩
    · exact ⟨by decide, by decide, by decide, by decide +kernel⟩
  have completed : extractRedisFrame (encodeCommand [[42]])
      = .done (.complete (encodeCommand [[42]]), []) := by
    decide +kernel
  exact ⟨(redis_commands_roundTrip.1 _ (by decide) encodable).1.mpr (by decide +kernel),
    redis_commands_roundTrip.2.1 _ _ _ completed rfl⟩

section Overfull

/-- The one-argument command with the largest argument. -/
def largestArgument : List Bytes := [List.replicate maxRedisBulkSize 0]

theorem length_encodeCommand_singleton (arg : Bytes)
    : (encodeCommand [arg]).length = arg.length + (numeral 10 arg.length).length + 9 := by
  have count : (numeral 10 1).length = 1 := by decide +kernel
  rw [encodeCommand, flatMap_singleton, encodeBulk]
  simp [count, crlf]
  omega

theorem length_encodeCommand_largestArgument
    : (encodeCommand largestArgument).length = maxRedisBulkSize + 14 := by
  have digits : (numeral 10 maxRedisBulkSize).length = 5 := by decide +kernel
  rw [largestArgument, length_encodeCommand_singleton, length_replicate, digits]

theorem encodable_largestArgument : Encodable largestArgument where
  nonempty := cons_ne_nil _ _
  few := by decide
  small arg member := by
    rw [mem_singleton.mp member, length_replicate]
  fits := by
    rw [length_encodeCommand_largestArgument]
    decide

/-- Seventeen commands, each far below the limit, are dropped when they arrive together. -/
theorem redis_commands_dropped
    : (∀ args ∈ List.replicate 17 largestArgument, Encodable args) ∧ drainFrames extractRedisFrame
          (((List.replicate 17 largestArgument).flatMap encodeCommand).length + 1)
          ((List.replicate 17 largestArgument).flatMap encodeCommand)
        = .done ⟨[], [(List.replicate 17 largestArgument).flatMap encodeCommand], none⟩ := by
  refine ⟨?_, ?_⟩
  · intro args member
    rw [List.eq_of_mem_replicate member]
    exact encodable_largestArgument
  · refine drainFrames_overfull ?_
    rw [List.length_flatMap, List.map_replicate, length_encodeCommand_largestArgument,
      List.sum_replicate_nat]
    decide

end Overfull

end NetTrap.Redis
