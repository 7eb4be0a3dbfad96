import NetTrap.Library.Cursor
import NetTrap.Redis.Grammar
import NetTrap.Redis.Handler

/-! One call of the handler, seen as the run of its commands.
The parser stays within every frame, and the reply of a call is what its commands reply, one
after the other.
-/

namespace NetTrap.Redis

open Access Rust Exec

section Parsing

variable {data : Bytes}

/-- The parser finishes; if it read something, between `start` and the end of the data. -/
def ReadsOn (data : Bytes) (start : Nat) (program : Exec (Option (List Bytes × Nat))) : Prop :=
  ∃ result, program = .done result
    ∧ ∀ parts stop, result = some (parts, stop) → start ≤ stop ∧ stop ≤ data.length

theorem ReadsOn.none (data : Bytes) (start : Nat) : ReadsOn data start (.done none) := by
  refine ⟨Option.none, rfl, ?_⟩
  intro parts stop read
  cases read

theorem ReadsOn.earlier {start later program} (reads : ReadsOn data later program)
    (before : start ≤ later) : ReadsOn data start program := by
  obtain ⟨result, finished, bounds⟩ := reads
  refine ⟨result, finished, ?_⟩
  intro parts stop read
  have := bounds parts stop read
  omega

/-- Behind the marker of a header, which is no line break, the line break that ends it. -/
theorem header_bounds {start headerEnd marker} (found : data[start]? = some marker)
    (notBreak : marker ≠ 13) (located : findCrlfFrom data start = some headerEnd)
    : start + 1 ≤ headerEnd ∧ headerEnd + 2 ≤ data.length := by
  have bounds := TcpFraming.findCrlfFrom_bounds located
  have after := TcpFraming.findCrlfFrom_after located (by simpa [found] using notBreak)
  exact ⟨after, bounds.2⟩

theorem respBulkLoop_readsOn (remaining : Nat) {pos : Nat} (within : pos ≤ data.length)
    (parts : List Bytes)
    : ReadsOn data pos (respBulkLoop data remaining pos parts) := by
  induction remaining generalizing pos parts with
  | zero =>
    refine ⟨some (parts, pos), rfl, ?_⟩
    intro _ stop read
    cases read
    exact ⟨Nat.le_refl pos, within⟩
  | succ remaining ih =>
    rw [respBulkLoop]
    split
    · exact .none data pos
    next marker =>
    rw [not_not] at marker
    split
    case h_2 => exact .none data pos
    next headerEnd located =>
    obtain ⟨ordered, inside⟩ := header_bounds marker (by decide) located
    rw [slice_of_le ordered (by omega), done_bind]
    split
    case h_2 => exact .none data pos
    split
    case h_2 => exact .none data pos
    simp only
    split
    case h_2 => exact .none data pos
    next bulkLen _ =>
    split
    · exact .none data pos
    split
    case h_2 => exact .none data pos
    next dataEnd atData =>
    split
    case h_2 => exact .none data pos
    next frameEnd atFrame =>
    obtain rfl := checkedAdd_eq atData
    obtain rfl := checkedAdd_eq atFrame
    split
    · exact .none data pos
    next fits =>
    rw [slice_of_le (by omega) (by omega), done_bind]
    split
    · exact .none data pos
    rw [slice_of_le (by omega) (by omega), done_bind]
    exact (ih (by omega) _).earlier (by omega)

theorem parseRespArrayAt_readsOn {start : Nat} (marker : data[start]? = some 42)
    : ReadsOn data (start + 1) (parseRespArrayAt data start) := by
  rw [parseRespArrayAt]
  split
  case h_2 => exact .none data _
  next headerEnd located =>
  obtain ⟨ordered, inside⟩ := header_bounds marker (by decide) located
  rw [slice_of_le ordered (by omega), done_bind]
  split
  case h_2 => exact .none data _
  split
  case h_2 => exact .none data _
  next count _ =>
  split
  · exact .none data _
  split
  · exact .none data _
  exact (respBulkLoop_readsOn count (by omega) []).earlier (by omega)

theorem le_skipCrlf (budget pos : Nat) : pos ≤ skipCrlf data budget pos := by
  induction budget generalizing pos with
  | zero => exact Nat.le_refl pos
  | succ budget ih =>
    rw [skipCrlf]
    split
    · have := ih (pos + 2)
      omega
    · exact Nat.le_refl pos

/-- The loop ends within its data when there is a round for every byte that is left. -/
theorem parseRespLoop_finishes {budget pos : Nat} (commands : List (List Bytes))
    (within : pos ≤ data.length) (enough : data.length < pos + budget)
    : (parseRespLoop data budget pos commands).Finishes := by
  induction budget generalizing pos commands with
  | zero => omega
  | succ budget ih =>
    rw [parseRespLoop]
    refine .ite (fun _ => .done _) fun more => ?_
    have skipped : pos ≤ skipCrlf data data.length pos := le_skipCrlf data.length pos
    simp only
    refine .ite (fun _ => .done _) fun inside => ?_
    rw [item_of_lt (by omega), done_bind]
    refine .ite (fun array => ?_) fun inline => ?_
    · have marker : data[skipCrlf data data.length pos]? = some 42 := by
        rw [List.getElem?_eq_getElem (by omega), beq_iff_eq.mp array]
      obtain ⟨result, finished, later⟩ := parseRespArrayAt_readsOn marker
      rw [finished, done_bind]
      split
      case h_2 => exact .done _
      next parts nextPos =>
      split
      case h_2 => exact .done _
      have := later parts nextPos rfl
      exact ih _ (by omega) (by omega)
    · split
      case h_2 => exact .done _
      next lineEnd located =>
      have bounds := TcpFraming.findCrlfFrom_bounds located
      rw [slice_of_le (by omega) (by omega), done_bind]
      refine .guard fun _ => ?_
      split
      case h_2 => exact .done _
      split
      case h_2 => exact .done _
      split
      case h_2 => exact .done _
      exact ih _ (by omega) (by omega)

theorem parseResp_finishes (data : Bytes) : (parseResp data).Finishes := by
  refine .guard fun _ => ?_
  exact parseRespLoop_finishes [] (Nat.zero_le _) (by omega)

end Parsing

variable (handler : RedisHandler)

/-- The commands of a call, each with what it adds to the reply. -/
def runCommands
    : Connection → List (List Bytes) → Connection × List Bytes
  | self, [] => (self, [])
  | self, [] :: commands =>
    if self.state = .disconnected then (self, []) else runCommands self commands
  | self, (name :: args) :: commands =>
    if self.state = .disconnected then (self, [])
    else
      let handled := handleParts handler self name args
      let later := runCommands handled.1 commands
      (later.1, handled.2.getD [] :: later.2)

variable {self : Connection}

theorem runCommands_of_disconnected (closed : self.state = .disconnected)
    (commands : List (List Bytes))
    : runCommands handler self commands = (self, []) := by
  cases commands with
  | nil => rfl
  | cons parts commands => cases parts <;> rw [runCommands, if_pos closed]

theorem runCommands_cons (opened : self.state ≠ .disconnected) (name : Bytes) (args : List Bytes)
    (commands : List (List Bytes))
    : runCommands handler self ((name :: args) :: commands)
      = ((runCommands handler (handleParts handler self name args).1 commands).1,
          (handleParts handler self name args).2.getD []
            :: (runCommands handler (handleParts handler self name args).1 commands).2) := by
  rw [runCommands, if_neg opened]

/-- What holds of a connection before a call's commands and is kept by each of them. -/
theorem runCommands_invariant {holds : Connection → Prop}
    (kept : ∀ self name args, holds self → holds (handleParts handler self name args).1)
    (commands : List (List Bytes)) (start : holds self)
    : holds (runCommands handler self commands).1 := by
  induction commands generalizing self with
  | nil => exact start
  | cons parts commands ih =>
    by_cases closed : self.state = .disconnected
    · rw [runCommands_of_disconnected handler closed]
      exact start
    · cases parts with
      | nil =>
        rw [runCommands, if_neg closed]
        exact ih start
      | cons name args =>
        rw [runCommands_cons handler closed]
        exact ih (kept self name args start)

/-- The loop of the handler collects what the commands reply; without a reply it has collected
nothing. -/
theorem commandLoop_eq (commands : List (List Bytes)) (self : Connection) (batch : Batch)
    (silent : batch.sawReply = false → batch.response = [])
    : (commandLoop handler self batch commands).1 = (runCommands handler self commands).1
      ∧ (commandLoop handler self batch commands).2.response
        = batch.response ++ (runCommands handler self commands).2.flatten
      ∧ (commandLoop handler self batch commands).2.sawCommand
        = (batch.sawCommand || !(runCommands handler self commands).2.isEmpty)
      ∧ ((commandLoop handler self batch commands).2.sawReply = false →
          (commandLoop handler self batch commands).2.response = []) := by
  induction commands generalizing self batch with
  | nil => simpa [commandLoop, runCommands] using silent
  | cons parts commands ih =>
    by_cases closed : self.state = .disconnected
    · rw [runCommands_of_disconnected handler closed]
      cases parts <;> simpa [commandLoop, closed] using silent
    · cases parts with
      | nil =>
        rw [commandLoop, if_neg closed, runCommands, if_neg closed]
        exact ih self batch silent
      | cons name args =>
        rw [commandLoop, if_neg closed, runCommands_cons handler closed]
        cases reply : (handleParts handler self name args).2 with
        | none =>
          have later := ih (handleParts handler self name args).1
            ⟨batch.response, true, batch.sawReply⟩ silent
          simpa [reply, Batch.add] using later
        | some resp =>
          have later := ih (handleParts handler self name args).1
            ⟨batch.response ++ resp, true, true⟩ (by simp)
          simpa [reply, Batch.add] using later

/-- A call on an open connection replies what its commands reply. -/
theorem handleCommandWithAuthState_eq {data commands} (opened : self.state ≠ .disconnected)
    (parsed : parseResp data = .done (some commands)) (filled : commands ≠ [])
    (nonempty : ∀ parts ∈ commands, parts ≠ [])
    : handleCommandWithAuthState handler self data = .done ((runCommands handler self commands).1,
          (runCommands handler self commands).2.flatten) := by
  obtain ⟨last, response, command, silent⟩ :=
    commandLoop_eq handler commands self .empty fun _ => rfl
  have saw : (commandLoop handler self .empty commands).2.sawCommand = true := by
    obtain ⟨parts, commands, rfl⟩ := List.exists_cons_of_ne_nil filled
    obtain ⟨name, args, rfl⟩ := List.exists_cons_of_ne_nil (nonempty parts List.mem_cons_self)
    rw [command, runCommands_cons handler opened]
    rfl
  have reply : (commandLoop handler self .empty commands).2.reply data
      = (commandLoop handler self .empty commands).2.response := by
    rw [Batch.reply, saw, Bool.not_true, Bool.false_and, if_neg Bool.false_ne_true]
    split
    case isTrue quiet =>
      rw [Bool.not_eq_true'] at quiet
      rw [silent quiet]
    case isFalse => rfl
  rw [handleCommandWithAuthState, if_neg opened, parsed]
  simp only [done_bind, pure_eq, reply, response, last]
  rfl

theorem handleCommandWithAuthState_of_disconnected (closed : self.state = .disconnected)
    (data : Bytes)
    : handleCommandWithAuthState handler self data = .done (self, []) := by
  rw [handleCommandWithAuthState, if_pos closed]
  rfl

/-- Every call returns, and leaves the connection as some commands leave it. -/
theorem handleCommandWithAuthState_returns (self : Connection) (data : Bytes)
    : ∃ commands reply, handleCommandWithAuthState handler self data
        = .done ((runCommands handler self commands).1, reply) := by
  by_cases closed : self.state = .disconnected
  · exact ⟨[], [], handleCommandWithAuthState_of_disconnected handler closed data⟩
  · obtain ⟨parsed, finished⟩ := parseResp_finishes data
    rw [handleCommandWithAuthState, if_neg closed, finished, done_bind]
    cases parsed with
    | none => exact ⟨[], _, rfl⟩
    | some commands =>
      obtain ⟨last, _⟩ := commandLoop_eq handler commands self .empty fun _ => rfl
      refine ⟨commands, (commandLoop handler self .empty commands).2.reply data, ?_⟩
      simp only [last]
      rfl

theorem handleCalls_cons_eq_done {after last data reply answer calls answers}
    (first : handleCommandWithAuthState handler self data = .done (after, reply))
    : handleCalls handler self (data :: calls) = .done (last, answer :: answers)
      ↔ reply = answer ∧ handleCalls handler after calls = .done (last, answers) := by
  rw [handleCalls, first, done_bind]
  cases later : handleCalls handler after calls with
  | fault => simp [later]
  | done result => simp [later, Prod.ext_iff, and_left_comm]

/-- Every sequence of calls returns, with a connection that keeps what each command keeps. -/
theorem handleCalls_invariant (holds : Connection → Prop)
    (kept : ∀ self name args, holds self → holds (handleParts handler self name args).1)
    (calls : List Bytes) (start : holds self)
    : ∃ last replies, handleCalls handler self calls = .done (last, replies) ∧ holds last := by
  induction calls generalizing self with
  | nil => exact ⟨self, [], rfl, start⟩
  | cons data calls ih =>
    obtain ⟨commands, reply, handled⟩ := handleCommandWithAuthState_returns handler self data
    obtain ⟨last, replies, finished, held⟩ := ih (runCommands_invariant handler kept commands start)
    refine ⟨last, reply :: replies, ?_, held⟩
    rw [handleCalls, handled, done_bind]
    simp only [finished, done_bind]
    rfl

end NetTrap.Redis
