import ScriptTrace.Plain.Basic
import ScriptTrace.Value.Render
/-!
# Snapshots

The plain data of a value at one moment. A value with containers nested deeper than `maxDepth`, or with
more than `containerLimit` of them, is replaced by a placeholder as a whole; so is a value that contains
itself. Long texts are cut, functions are shown by name.
-/
namespace ScriptTrace.Value

/-- How deep containers may nest. -/
def maxDepth : Nat := 32

def truncationMark : Text := "...[truncated]"

def unserializable : Text := "[Unserializable]"

/-- A text cut to `limit` code points. -/
def cut (limit : Nat) (t : Text) : Text :=
  if limit < t.length then t.take limit ++ truncationMark else t

/-- Entries by name. Entries under texts keep their names; others may come to share one, and then the last of
them counts. -/
def namedFields (entries : List (EntryKey × Plain)) : List (Text × Plain) :=
  let named := entries.map fun (k, p) => (k.toDatum.shown, p)
  if entries.all fun (k, _) => k.isText then named else Assoc.ofPairs named

/-- The data of a value and the remaining budget; `path` holds the containers it stands in, and the first
argument bounds how many more may nest. -/
def dataWithin (h : Heap) (limit : Nat) : Nat → List Value → Value → Nat → Except Obstacle (Plain × Nat)
  | depth, path, .array ref, budget =>
    match depth with
    | 0 => .error .tooDeep
    | depth + 1 =>
      if path.contains (.array ref) then .error .circular
      else
        match budget with
        | 0 => .error .tooLarge
        | budget + 1 =>
          (walk (dataWithin h limit depth (.array ref :: path)) (h.array ref) budget).map
            fun (items, left) => (.list items, left)
  | depth, path, .object ref, budget =>
    match depth with
    | 0 => .error .tooDeep
    | depth + 1 =>
      if path.contains (.object ref) then .error .circular
      else
        match budget with
        | 0 => .error .tooLarge
        | budget + 1 =>
          (walk (fun (k, v) left =>
              (dataWithin h limit depth (.object ref :: path) v left).map fun (p, left) => ((k, p), left))
            (h.object ref) budget).map fun (entries, left) => (.record (namedFields entries), left)
  | _, _, .undefined, budget => .ok (.undefined, budget)
  | _, _, .null, budget => .ok (.null, budget)
  | _, _, .bool b, budget => .ok (.bool b, budget)
  | _, _, .number n, budget => .ok (.number n, budget)
  | _, _, .text t, budget => .ok (.text (cut limit t), budget)
  | _, _, .function name, budget => .ok (.text (placeholder name), budget)

def snapshot (h : Heap) (limit : Nat) (v : Value) : Plain :=
  match dataWithin h limit maxDepth [] v containerLimit with
  | .ok (data, _) => data
  | .error _ => .text unserializable

/-- The data of variables, each on its own. -/
def snapshotAll (h : Heap) (limit : Nat) (bindings : Assoc Text Value) : List (Text × Plain) :=
  bindings.map fun (name, v) => (name, v.snapshot h limit)

end ScriptTrace.Value
