import UiSuite.Text.Utf8

/-! Queues of payloads: first in, first out. -/
namespace UiSuite.Queue

/-- Payloads, the next one first. -/
structure Payloads where
  items : List String
deriving DecidableEq

namespace Payloads

def empty : Payloads := ⟨[]⟩

def push (q : Payloads) (payload : String) : Payloads :=
  ⟨q.items ++ [payload]⟩

/-- The next payload, and the queue without it. -/
def pop (q : Payloads) : Option String × Payloads :=
  match q.items with
  | [] => (none, q)
  | payload :: rest => (some payload, ⟨rest⟩)

def size (q : Payloads) : Nat :=
  q.items.length

/-- A queue of the contents of files, each with its path; an error names the first that
cannot be read. -/
def ofFiles : List (String × Option (List UInt8)) → Except String Payloads
  | files => do
    let items ← files.mapM fun (path, content) =>
      match content.map Text.Utf8.decode with
      | some (.ok text) => .ok text
      | _ => .error ("Failed to read DSL file " ++ path)
    return ⟨items⟩

@[simp] theorem items_push (q : Payloads) (payload : String) :
    (q.push payload).items = q.items ++ [payload] := rfl

theorem pop_of_nil {q : Payloads} (h : q.items = []) : q.pop = (none, q) := by
  rw [pop, h]

theorem pop_of_cons {q : Payloads} {payload : String} {rest : List String}
    (h : q.items = payload :: rest) : q.pop = (some payload, ⟨rest⟩) := by
  rw [pop, h]

end Payloads
end UiSuite.Queue
