import NetTrap.Rust.Chars
import NetTrap.Rust.Collections

/-! The virtual file system: a map from path texts to files and directories.
The times in its default log file are an argument, and so is what the host's file system
answers while a tree is seeded from it.
-/

namespace NetTrap.Vfs

open Rust

inductive VfsEntry where
  | file (content : Bytes) (size : Nat)
  | directory
  deriving DecidableEq, Repr

def VfsEntry.isDir : VfsEntry → Bool
  | .file _ _ => false
  | .directory => true

/-! Paths. -/

/-- What one component of a path does to the components before it. -/
def pushComponent (components : List Text) (component : Text) : List Text :=
  if component = [] ∨ component = ['.'] then components
  else if component = ['.', '.'] then components.dropLast
  else components ++ [component]

abbrev Entries := HashMap Text VfsEntry

variable (entries : Entries) (path : Text)

def pathComponents : List Text :=
  let normalized := path.map fun char => if char = '\\' then '/' else char
  (normalized.splitOn '/').foldl pushComponent []

def normalizePath : Text :=
  let components := pathComponents path
  if components = [] then ['/'] else '/' :: ['/'].intercalate components

def pathIsSafe : Bool :=
  !path.any fun char =>
    isControl char.toNat || char.toNat == 0x85 || char.toNat == 0x2028 || char.toNat == 0x2029

/-- `Path::parent` of a path that is absolute and has no empty or dot components: what stands
before its last slash.
-/
def pathParent : Option Text :=
  if path = ['/'] then none
  else
    let parent := ((path.reverse.dropWhile (· ≠ '/')).drop 1).reverse
    some (if parent = [] then ['/'] else parent)

def parentPath : Option Text :=
  (pathParent path).map normalizePath

/-! Operations. -/

def parentIsDirectory : Bool :=
  match parentPath path with
  | some parent => decide (entries.get parent = some .directory)
  | none => false

def createDirInternal : Entries :=
  if !pathIsSafe path then entries
  else
    let path := normalizePath path
    if path ≠ ['/'] ∧ !parentIsDirectory entries path then entries
    else
      match entries.get path with
      | some (.file _ _) => entries
      | some .directory => entries
      | none => entries.insert path .directory

def createFileInternal (content : Bytes) : Entries :=
  if !pathIsSafe path then entries
  else
    let path := normalizePath path
    let size := content.length
    if !parentIsDirectory entries path then entries
    else if entries.get path = some .directory then entries
    else entries.insert path (.file content size)

def createFile (content : Bytes) : Entries :=
  if !pathIsSafe path || decide (normalizePath path = ['/']) then entries
  else createFileInternal entries path content

def createDir : Entries :=
  if !pathIsSafe path then entries else createDirInternal entries path

def delete : Entries × Bool :=
  if !pathIsSafe path then (entries, false)
  else
    let path := normalizePath path
    if path = ['/'] then (entries, false)
    else if entries.get path = some .directory
        ∧ entries.toPairs.any (fun entry => (path ++ ['/']).isPrefixOf entry.1) then
      (entries, false)
    else (entries.remove path, (entries.get path).isSome)

/-- The loop that moves the children of a renamed directory. -/
def moveChildren (order : IterOrder (Text × VfsEntry)) (entries : Entries)
    (fromPath toPath : Text) : Entries :=
  let fromSlash := fromPath ++ ['/']
  let children := (order.run entries.toPairs).filter fun entry => fromSlash.isPrefixOf entry.1
  entries.relocate (fun oldKey => normalizePath (toPath ++ '/' :: oldKey.drop fromSlash.length))
    children

def rename (order : IterOrder (Text × VfsEntry)) (entries : Entries) (fromPath toPath : Text)
    : Entries × Bool :=
  if !pathIsSafe fromPath || !pathIsSafe toPath then (entries, false)
  else
    let fromPath := normalizePath fromPath
    let toPath := normalizePath toPath
    if fromPath = ['/'] then (entries, false)
    else
      match entries.get fromPath with
      | none => (entries, false)
      | some entry =>
        if toPath ≠ fromPath ∧ entries.containsKey toPath then (entries, false)
        else if !parentIsDirectory entries toPath then (entries, false)
        else if entry.isDir && (fromPath ++ ['/']).isPrefixOf toPath then (entries, false)
        else
          let renamed := (entries.remove fromPath).insert toPath entry
          (if entry.isDir then moveChildren order renamed fromPath toPath else renamed, true)

/-! Construction. -/

def maxSeedDepth : Nat := 20

def maxSeedEntries : Nat := 4096

def maxSeedFileBytes : Nat := 10 * 1024 * 1024

def maxSeedTotalBytes : Nat := 64 * 1024 * 1024

/-- A file name of the host: a text, or bytes that are none. -/
inductive OsName where
  | text (value : Text)
  | raw (bytes : Bytes)
  deriving DecidableEq, Repr

def hexadecimal (number : Nat) : Text :=
  Nat.toDigits 16 number

def safeVfsName : OsName → Text
  | .text value =>
    if pathIsSafe value then value
    else
      (Text.lit "unnamed-" ++ value.flatMap fun char => hexadecimal char.toNat ++ ['-']).dropLast
  | .raw bytes =>
    Text.lit "unnamed-" ++ bytes.flatMap fun byte =>
      if byte < 16 then '0' :: hexadecimal byte.toNat else hexadecimal byte.toNat

/-- The path of a file below the seeded directory, by the names on the way to it. -/
def relativeVfsPath (names : List OsName) : Text :=
  if names = [] then ['/'] else '/' :: ['/'].intercalate (names.map safeVfsName)

/-- A file that was opened: its reported length, and its bytes. -/
structure OpenedFile where
  length : Nat
  content : Bytes
  deriving Repr

/-- The content of a seed file, unless it could not be opened or is too large. -/
def readSeedFile : Option OpenedFile → Option Bytes
  | none => none
  | some file =>
    if file.length > maxSeedFileBytes then none
    else
      let content := file.content.take (maxSeedFileBytes + 1)
      if content.length > maxSeedFileBytes then none else some content

structure SeedBudget where
  (entries totalBytes : Nat := 0)
  deriving DecidableEq, Repr

inductive SeedDecision where
  | read
  | skip
  | stop
  deriving DecidableEq, Repr

namespace SeedBudget

def entryLimitReached (budget : SeedBudget) : Bool :=
  budget.entries ≥ maxSeedEntries

def reserveDir (budget : SeedBudget) : Option SeedBudget :=
  if budget.entryLimitReached then none
  else some { budget with entries := budget.entries + 1 }

def reserveFile (budget : SeedBudget) (fileBytes : Nat) : SeedDecision × SeedBudget :=
  if budget.entryLimitReached then (.stop, budget)
  else if fileBytes > maxSeedFileBytes then (.skip, budget)
  else
    match checkedAdd budget.totalBytes fileBytes with
    | none => (.stop, budget)
    | some nextTotal =>
      if nextTotal > maxSeedTotalBytes then (.stop, budget)
      else (.read, { entries := budget.entries + 1, totalBytes := nextTotal })

end SeedBudget

mutual

/-- What the host answers when a directory is seeded. -/
inductive SeedDir where
  | symlink
  | unreadable
  | listing (entries : SeedEntries)

/-- The entries of a listing. Those that cannot be read, and those that are neither files nor
directories, are passed over.
-/
inductive SeedEntries where
  | nil
  | passedOver (rest : SeedEntries)
  | directory (name : OsName) (seed : SeedDir) (rest : SeedEntries)
  | file (name : OsName) (fileBytes : Nat) (opened : Option OpenedFile) (rest : SeedEntries)

end

mutual

def seedFromDirDepth (entries : Entries) (budget : SeedBudget) (depth : Nat)
    (relative : List OsName) : SeedDir → Entries × SeedBudget
  | .symlink => (entries, budget)
  | .unreadable => (entries, budget)
  | .listing listed =>
    if budget.entryLimitReached then (entries, budget)
    else if depth > maxSeedDepth then (entries, budget)
    else
      let vfsDir := normalizePath (relativeVfsPath relative)
      match budget.reserveDir with
      | none => (entries, budget)
      | some budget => seedEntries (createDirInternal entries vfsDir) budget depth relative listed

def seedEntries (entries : Entries) (budget : SeedBudget) (depth : Nat)
    (relative : List OsName) : SeedEntries → Entries × SeedBudget
  | .nil => (entries, budget)
  | .passedOver rest => seedEntries entries budget depth relative rest
  | .directory name seed rest =>
    let (entries, budget) := seedFromDirDepth entries budget (depth + 1) (relative ++ [name]) seed
    seedEntries entries budget depth relative rest
  | .file name fileBytes opened rest =>
    let vfsPath := normalizePath (relativeVfsPath (relative ++ [name]))
    match budget.reserveFile fileBytes with
    | (.read, budget) =>
      match readSeedFile opened with
      | some content =>
        seedEntries (createFileInternal entries vfsPath content) budget depth relative rest
      | none => seedEntries entries budget depth relative rest
    | (.skip, budget) => seedEntries entries budget depth relative rest
    | (.stop, budget) => (entries, budget)

end

def fakePdf : Bytes :=
  (Text.lit "%PDF-1.4\n1 0 obj<</Type/Catalog/Pages 2 0 R>>endobj\n").utf8
    ++ (Text.lit "2 0 obj<</Type/Pages/Kids[3 0 R]/Count 1>>endobj\n").utf8
    ++ (Text.lit "3 0 obj<</Type/Page/Parent 2 0 R/MediaBox[0 0 612 792]>>endobj\n").utf8
    ++ (Text.lit "xref\n0 4\n0000000000 65535 f \n0000000009 00000 n \n").utf8
    ++ (Text.lit "0000000052 00000 n \n0000000101 00000 n \n").utf8
    ++ (Text.lit "trailer<</Size 4/Root 1 0 R>>\nstartxref\n170\n%%EOF").utf8

def defaultDirs : List Text :=
  [.lit "/", .lit "/pub", .lit "/pub/docs", .lit "/home", .lit "/home/admin", .lit "/var",
    .lit "/var/log", .lit "/tmp"]

def defaultFiles (syslog : Bytes) : List (Text × Bytes) :=
  [(.lit "/pub/readme.txt", (Text.lit "Welcome to the FTP server.\r\n").utf8),
    (.lit "/pub/docs/manual.pdf", fakePdf),
    (.lit "/home/admin/.bashrc",
      (Text.lit "# .bashrc\nexport PATH=/usr/local/bin:$PATH\n").utf8),
    (.lit "/var/log/syslog", syslog)]

/-- The file system at its start. `seed` is what was found at the directory given, if there was
one and it was a real directory.
-/
def new (syslog : Bytes) : (seed : Option SeedDir) → Entries
  | some seed => (seedFromDirDepth .empty {} 0 [] seed).1
  | none =>
    (defaultFiles syslog).foldl (fun entries file => createFileInternal entries file.1 file.2)
      (defaultDirs.foldl createDirInternal .empty)

/-! Runs. -/

/-- An operation of a client. Renaming a directory iterates over the map, in some order. -/
inductive Operation where
  | createFile (path : Text) (content : Bytes)
  | createDir (path : Text)
  | delete (path : Text)
  | rename (fromPath toPath : Text) (order : IterOrder (Text × VfsEntry))

/-- An operation, with its answer if it has one. -/
def perform : Operation → Entries × Option Bool
  | .createFile path content => (createFile entries path content, none)
  | .createDir path => (createDir entries path, none)
  | .delete path => ((delete entries path).1, some (delete entries path).2)
  | .rename fromPath toPath order =>
    ((rename order entries fromPath toPath).1, some (rename order entries fromPath toPath).2)

def run (operations : List Operation) : Entries :=
  operations.foldl (fun entries operation => (perform entries operation).1) entries

end NetTrap.Vfs
