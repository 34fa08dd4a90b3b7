import HouseStyle.Config.Layers
import HouseStyle.Event
import HouseStyle.Keyed
import HouseStyle.Portfolio.Store
import HouseStyle.Store.PatternStore

/-!
# The host

What a service works on and what outlives it: files, databases, the clock and the
listeners. A database has a number under which its contents are kept. A database file
holds that number, so whoever opens the file works on the same contents; a database in
memory is known only to the one who opened it.
-/

namespace HouseStyle

structure Databases where
  stores : List (Nat × PatternStore)
  portfolios : List (Nat × Portfolio)
  /-- The number of the next database. -/
  next : Nat

namespace Databases

def none : Databases := ⟨[], [], 0⟩

def store (databases : Databases) (number : Nat) : PatternStore :=
  (databases.stores.lookup number).getD .empty

def putStore (databases : Databases) (number : Nat) (store : PatternStore) : Databases :=
  { databases with stores := putKeyed number store databases.stores }

def portfolio (databases : Databases) (number : Nat) : Portfolio :=
  (databases.portfolios.lookup number).getD .empty

def putPortfolio (databases : Databases) (number : Nat) (portfolio : Portfolio) : Databases :=
  { databases with portfolios := putKeyed number portfolio databases.portfolios }

/-- Find a store as one finds it who opens it again. -/
def reopenStore (databases : Databases) (number : Nat) : Databases :=
  databases.putStore number (databases.store number).reopened

/-- Make an empty store, and give its number. -/
def newStore (databases : Databases) : Databases × Nat :=
  ({ databases with next := databases.next + 1 }.putStore databases.next .empty, databases.next)

/-- Make an empty portfolio, and give its number. -/
def newPortfolio (databases : Databases) : Databases × Nat :=
  ({ databases with next := databases.next + 1 }.putPortfolio databases.next .empty,
    databases.next)

end Databases

structure Host where
  files : FileNode
  environment : Environment
  databases : Databases
  /-- Seconds since the epoch. -/
  now : Int
  /-- How many projects were given an id. -/
  projectCount : Nat
  listeners : List Listener

namespace Host

def announce (host : Host) (event : Event) : Host :=
  { host with listeners := HouseStyle.announce host.listeners event }

def announceAll (host : Host) (events : List Event) : Host := events.foldl announce host

/-- The number after `P`, with at least four digits. -/
def projectId (number : Nat) : String :=
  let digits := Nat.toDigits 10 number
  "P" ++ String.ofList (List.replicate (4 - digits.length) '0' ++ digits)

/-- The id of the next project. -/
def nextProjectId (host : Host) : String := projectId (host.projectCount + 1)

/-- Make a directory for a database. -/
def makeDirectory (host : Host) (directory : String) : Except StorageError Host :=
  let failed (reason : String) := StorageError.engine ("create " ++ directory ++ ": " ++ reason)
  match host.files.find (Path.namesOf directory) with
  | .ok node =>
    if node.isDirectory then .ok host else .error (failed "File exists (os error 17)")
  | .error .missing =>
    .ok { host with files := host.files.makeDirectory (Path.namesOf directory) }
  | .error failure => .error (failed failure.message)

/-- Open a database file, or make one with `create` when there is none. A file of at most one
byte is a database without contents. -/
def openDatabase (host : Host) (create : Databases → Databases × Nat)
    (reopen : Databases → Nat → Databases) (directory name : String) :
    Except StorageError (Host × Nat) := do
  let host ← host.makeDirectory directory
  let path := Settings.joinPath directory name
  let place := Path.namesOf path
  let created : Host × Nat :=
    let (databases, number) := create host.databases
    ({ host with databases, files := (FileNode.database number).put host.files place }, number)
  let notDatabase := StorageError.engine "writer pragmas: file is not a database"
  match host.files.find place with
  | .error _ => return created
  | .ok (.database number) =>
    return ({ host with databases := reopen host.databases number }, number)
  | .ok (.directory _) => throw (.engine ("unable to open database file: " ++ path))
  | .ok (.text content) =>
    if content.utf8ByteSize ≤ 1 then return created else throw notDatabase
  | .ok (.binary size) => if size ≤ 1 then return created else throw notDatabase

def storeFile : String := "patterns.db"

def portfolioFile : String := "global.db"

/-- Open the store of a project in its data directory. -/
def openStore (host : Host) (root : String) : Except StorageError (Host × Nat) :=
  host.openDatabase Databases.newStore Databases.reopenStore
    (Settings.joinPath root Settings.dataDirectory) storeFile

/-- Open the portfolio in a directory. -/
def openPortfolio (host : Host) (directory : String) : Except StorageError (Host × Nat) :=
  host.openDatabase Databases.newPortfolio (fun databases _ => databases) directory
    portfolioFile

/-- A store in memory. -/
def newStore (host : Host) : Host × Nat :=
  let (databases, number) := host.databases.newStore
  ({ host with databases }, number)

/-- A portfolio in memory. -/
def newPortfolio (host : Host) : Host × Nat :=
  let (databases, number) := host.databases.newPortfolio
  ({ host with databases }, number)

end Host

end HouseStyle
