import NetTrap.Library.Exec
import NetTrap.Library.Search
import NetTrap.Rust.Text

/-! The Redis handler's own parser: what `parse_resp` makes of the bytes of a frame. -/

namespace NetTrap.Redis

open Access Search Rust

def maxRespCommands : Nat := 1024
def maxRespArrayCount : Nat := 1024
def maxRespBulkSize : Nat := 64 * 1024
def maxRespFrameSize : Nat := 1024 * 1024
def maxInlineCommandBytes : Nat := 64 * 1024
def maxInlineCommandArgs : Nat := 1024

def findCrlfFrom (haystack : Bytes) (start : Nat) : Option Nat :=
  if start ≤ haystack.length then
    (findSub crlf (haystack.drop start)).map fun offset => start + offset
  else none

def parseRespArrayCount (text : Str) : Option Nat :=
  if text.isEmpty || !text.all isAsciiDigit then none else parseDecimalUsize text

def parseRespBulkLen (text : Str) : Option (Option Nat) :=
  if text == ascii "-1" then some none
  else if text.isEmpty || !text.all isAsciiDigit then none
  else (parseDecimalUsize text).map some

/-- The loop over the bulk strings of an array, `remaining` of them from `pos` on. -/
def respBulkLoop (data : Bytes)
    : (remaining pos : Nat) → (parts : List Bytes) → Exec (Option (List Bytes × Nat))
  | 0, pos, parts => return some (parts, pos)
  | remaining + 1, pos, parts => do
      if data[pos]? ≠ some 36 then
        return none
      let some bulkHeaderEnd := findCrlfFrom data pos | return none
      let some bulkLenText := fromUtf8 (← slice data (pos + 1) bulkHeaderEnd) | return none
      let some bulkLen := parseRespBulkLen bulkLenText | return none
      let pos := bulkHeaderEnd + 2
      let some bulkLen := bulkLen | return none
      if bulkLen > maxRespBulkSize then
        return none
      let some dataEnd := checkedAdd pos bulkLen | return none
      let some frameEnd := checkedAdd dataEnd 2 | return none
      if frameEnd > data.length then
        return none
      if (← slice data dataEnd frameEnd) != crlf then
        return none
      let part ← slice data pos dataEnd
      respBulkLoop data remaining frameEnd (parts ++ [part])

def parseRespArrayAt (data : Bytes) (start : Nat) : Exec (Option (List Bytes × Nat)) := do
  let some headerEnd := findCrlfFrom data start | return none
  let some countText := fromUtf8 (← slice data (start + 1) headerEnd) | return none
  let some count := parseRespArrayCount countText | return none
  if count == 0 then
    return none
  if count > maxRespArrayCount then
    return none
  respBulkLoop data count (headerEnd + 2) []

/-- The arguments of an inline command. -/
def inlineParts (text : Str) : Option (List Bytes) :=
  let codes := chars text
  if codes.any fun char => isControl char && char != 32 then none
  else if codes.head?.any isWhitespace
      || codes.any fun char => isControl char || (isWhitespace char && char != 32) then none
  else
    let parts := (text.splitOn 32).take (maxInlineCommandArgs + 1)
    if (parts.drop 1).any (·.isEmpty) then none
    else if parts.length > maxInlineCommandArgs then none
    else some parts

/-- `while data.get(pos..pos + 2) == Some(b"\r\n")`. -/
def skipCrlf (data : Bytes) : (budget pos : Nat) → Nat
  | 0, pos => pos
  | budget + 1, pos =>
    if getRange data pos (pos + 2) = some crlf then skipCrlf data budget (pos + 2) else pos

/-- Appends a command unless there are too many. -/
def pushCommand (commands : List (List Bytes)) (parts : List Bytes) : Option (List (List Bytes)) :=
  if parts.isEmpty then some commands
  else if commands.length ≥ maxRespCommands then none
  else some (commands ++ [parts])

/-- The loop over the commands; every round reads at least one byte. -/
def parseRespLoop (data : Bytes)
    : (budget pos : Nat) → (commands : List (List Bytes)) → Exec (Option (List (List Bytes)))
  | 0, _, _ => .fault
  | budget + 1, pos, commands => do
      if pos ≥ data.length then
        return some commands
      let pos := skipCrlf data data.length pos
      if pos ≥ data.length then
        return some commands
      if (← item data pos) == 42 then
        let some (parts, nextPos) ← parseRespArrayAt data pos | return none
        let some commands := pushCommand commands parts | return none
        parseRespLoop data budget nextPos commands
      else
        let some lineEnd := findCrlfFrom data pos | return none
        let line ← slice data pos lineEnd
        if line.length > maxInlineCommandBytes then
          return none
        let some text := fromUtf8 line | return none
        let some parts := inlineParts text | return none
        let some commands := pushCommand commands parts | return none
        parseRespLoop data budget (lineEnd + 2) commands

def parseResp (data : Bytes) : Exec (Option (List (List Bytes))) :=
  if data.length > maxRespFrameSize then .done none
  else parseRespLoop data (data.length + 1) 0 []

end NetTrap.Redis
