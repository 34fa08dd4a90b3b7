import HouseStyle.Store.Fault
import HouseStyle.Json.Lookup

/-!
# A console for databases

A console performs named steps, given as JSON objects, on a database. Steps can be
put together into a transaction, which takes effect as a whole or not at all, and
writes to a table can be blocked and let through again. A step outside a transaction that
fails halfway leaves what it has done.
-/

namespace HouseStyle

/-- What a console needs to know of a kind of database. -/
structure Console (σ : Type) where
  /-- Perform a step by its name and arguments. The database is given back also when the
  step fails. -/
  perform : String → Json → σ → Except StorageError Json × σ
  /-- The database after a failed transaction, from before it and from its end. -/
  rolledBack : σ → σ → σ
  faults : σ → Faults
  withFaults : σ → Faults → σ
  schema : String
  schemaVersion : Nat
  cacheKib : Nat
  busyTimeoutMs : Nat

namespace Console

variable {σ : Type}

/-- Perform steps one after the other. The first error ends it, with the database as its
step has left it. -/
def runAll (step : Json → σ → Except StorageError Json × σ) :
    List Json → σ → Except StorageError (List Json) × σ
  | [], state => (.ok [], state)
  | first :: others, state =>
    match step first state with
    | (.error error, state) => (.error error, state)
    | (.ok result, state) =>
      let (results, state) := runAll step others state
      (results.map (result :: ·), state)

/-- A write that takes effect as a whole or not at all. -/
def whole {α : Type} (encode : α → Json) (write : Except StorageError (σ × α)) (state : σ) :
    Except StorageError Json × σ :=
  match write with
  | .error error => (.error error, state)
  | .ok (state, result) => (.ok (encode result), state)

/-- How a database was opened and which schema it has. -/
def info (console : Console σ) (onDisk : Bool) : Json :=
  .object [
    ("schema", .text console.schema), ("version", .ofNat console.schemaVersion),
    ("latest", .ofNat console.schemaVersion), ("has_read_pool", .bool onDisk),
    ("has_path", .bool onDisk), ("cache_kib", .ofNat console.cacheKib),
    ("busy_timeout_ms", .ofNat console.busyTimeoutMs)]

/-- Block writes to a table, or let them through again. -/
def block (faults : Faults) (step : Json) : Faults :=
  match Table.ofName? (step.textAt "table"),
      WriteKind.ofName? ((step.optionalTextAt "event").getD "INSERT") with
  | some table, some kind =>
    if (step.field? "on").bind Json.asBool? = some false then faults.lift table kind
    else if step.boolAt "ignore" then faults.block table kind .drop
    else faults.block table kind (.fail (step.textAt "message"))
  | _, _ => faults

/-- A step that may be part of a transaction. -/
def inner (console : Console σ) (onDisk : Bool) (step : Json) (state : σ) :
    Except StorageError Json × σ :=
  match step.textAt "do" with
  | "tx" => (.error (.engine "cannot start a transaction within a transaction"), state)
  | "block" =>
    (.ok .null, console.withFaults state (block (console.faults state) step))
  | "info" => (.ok (console.info onDisk), state)
  | name => console.perform name step state

/-- Any step. A transaction fails as a whole with its first failing step, or at its end
when it is told to. -/
def step (console : Console σ) (onDisk : Bool) (step : Json) (state : σ) :
    Except StorageError Json × σ :=
  if step.textAt "do" = "tx" then
    match runAll (console.inner onDisk) (step.listAt "steps") state with
    | (.error error, after) => (.error error, console.rolledBack state after)
    | (.ok results, after) =>
      if step.boolAt "fail" then
        (.error (.notFound "forced" "rollback"), console.rolledBack state after)
      else (.ok (.list results), after)
  else console.inner onDisk step state

end Console

end HouseStyle
