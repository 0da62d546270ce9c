import TypedSheets.Artifact.Store

/-!
# Processes on a store

A process works on a store by transactions. What it does next may depend on the answers so far, and
between two of its transactions other processes may change the store.

* `StoreProcess` — a process with a result
* `StoreProcess.bind` — one process after another
* `StoreProcess.step` — the next transaction of a process
* `StoreProcess.run` — a process that is alone on a store
-/

namespace TypedSheets

/-- A process on a store: finished, or at a transaction whose answer it waits for. -/
inductive StoreProcess (α : Type) where
  | done (result : α)
  | manifest (next : Except BakeError (Option Manifest) → StoreProcess α)
  | rowKeys (file : String) (next : Except BakeError (List String) → StoreProcess α)
  | rows (file : String) (keys : List String)
      (next : Except BakeError (List (String × List UInt8)) → StoreProcess α)
  | save (plan : SavePlan) (next : Except BakeError Unit → StoreProcess α)

namespace StoreProcess

variable {α β : Type}

/-- One process, and another that goes on with its result. -/
def bind (f : α → StoreProcess β) : StoreProcess α → StoreProcess β
  | done result => f result
  | manifest next => .manifest fun a => (next a).bind f
  | rowKeys file next => .rowKeys file fun a => (next a).bind f
  | rows file keys next => .rows file keys fun a => (next a).bind f
  | save plan next => .save plan fun a => (next a).bind f

/-- The next transaction of a process: what is left of the process and the store after it. -/
def step (s : ArtifactStore) : StoreProcess α → StoreProcess α × ArtifactStore
  | done result => (done result, s)
  | manifest next => (next s.manifest, s)
  | rowKeys file next => (next (s.rowKeys file), s)
  | rows file keys next => (next (s.rows file keys), s)
  | save plan next =>
    match s.save plan with
    | .ok s' => (next (.ok ()), s')
    | .error e => (next (.error e), s)

/-- The result of a process that is alone on a store, and the store after it. -/
def run : StoreProcess α → ArtifactStore → α × ArtifactStore
  | done result, s => (result, s)
  | manifest next, s => (next s.manifest).run s
  | rowKeys file next, s => (next (s.rowKeys file)).run s
  | rows file keys next, s => (next (s.rows file keys)).run s
  | save plan next, s =>
    match s.save plan with
    | .ok s' => (next (.ok ())).run s'
    | .error e => (next (.error e)).run s

end StoreProcess

end TypedSheets
