import TestBench.Yaml.Tree
/-
  The nodes of a YAML document with every alias replaced by what it stands for.

  A document may hold itself, so replacing ends in two ways: collections nest at most `depthLimit`
  deep, and a document of `n` events allows `100 * n` aliases to be followed.  Where either bound is
  reached stands a node without content (`bottomless`), which no decoder accepts but which does no
  harm in a part that nobody reads.
-/
namespace TestBench.Yaml

inductive Node where
  | scalar (tag : Option String) (text : String) (plain : Bool)
  | sequence (tag : Option String) (items : List Node)
  | mapping (tag : Option String) (entries : List (Node × Node))
  | bottomless
  deriving Repr, Inhabited

namespace Node

mutual

/-- Nodes are the same if they are built alike from the same parts. -/
def same : Node → Node → Bool
  | .scalar tag value plain, .scalar tag' value' plain' =>
    tag == tag' && value == value' && plain == plain'
  | .sequence tag items, .sequence tag' items' => tag == tag' && sameItems items items'
  | .mapping tag entries, .mapping tag' entries' => tag == tag' && sameEntries entries entries'
  | .bottomless, .bottomless => true
  | _, _ => false

def sameItems : List Node → List Node → Bool
  | [], [] => true
  | n :: rest, n' :: rest' => same n n' && sameItems rest rest'
  | _, _ => false

def sameEntries : List (Node × Node) → List (Node × Node) → Bool
  | [], [] => true
  | (k, v) :: rest, (k', v') :: rest' => same k k' && same v v' && sameEntries rest rest'
  | _, _ => false

end

mutual

theorem same_iff (n m : Node) : n.same m ↔ n = m := by
  cases n <;> cases m <;> simp [same, sameItems_iff, sameEntries_iff, and_assoc]

theorem sameItems_iff (ns ms : List Node) : sameItems ns ms ↔ ns = ms := by
  cases ns <;> cases ms <;> simp [sameItems, same_iff, sameItems_iff]

theorem sameEntries_iff (ns ms : List (Node × Node)) : sameEntries ns ms ↔ ns = ms := by
  rcases ns with _ | ⟨⟨k, v⟩, rest⟩ <;> rcases ms with _ | ⟨⟨k', v'⟩, rest'⟩ <;>
    simp [sameEntries, same_iff, sameEntries_iff]

end

instance : DecidableEq Node := fun n m => decidable_of_iff _ (same_iff n m)

end Node

/-- How deep collections may nest. -/
def depthLimit : Nat := 128

/-- How often an alias may be followed, for each event of the document. -/
def aliasesPerEvent : Nat := 100

namespace Tree

mutual

/-- A scalar or an alias is one event, a collection has two of its own. -/
def events : Tree → Nat
  | .alias _ => 1
  | .scalar .. => 1
  | .sequence _ _ items => 2 + itemEvents items
  | .mapping _ _ entries => 2 + entryEvents entries

def itemEvents : List Tree → Nat
  | [] => 0
  | t :: rest => events t + itemEvents rest

def entryEvents : List (Tree × Tree) → Nat
  | [] => 0
  | (k, v) :: rest => events k + events v + entryEvents rest

end

/-- The node itself under its anchor number. -/
def own (t : Tree) : List (Nat × Tree) :=
  match t with
  | .alias _ => []
  | .scalar a .. => a.toList.map (·, t)
  | .sequence a .. => a.toList.map (·, t)
  | .mapping a .. => a.toList.map (·, t)

mutual

/-- The anchored nodes in the order of the text. -/
def anchored : Tree → List (Nat × Tree)
  | .sequence a tag items => own (.sequence a tag items) ++ itemsAnchored items
  | .mapping a tag entries => own (.mapping a tag entries) ++ entriesAnchored entries
  | t => own t

def itemsAnchored : List Tree → List (Nat × Tree)
  | [] => []
  | t :: rest => anchored t ++ itemsAnchored rest

def entriesAnchored : List (Tree × Tree) → List (Nat × Tree)
  | [] => []
  | (k, v) :: rest => anchored k ++ anchored v ++ entriesAnchored rest

end

/-- The node that a number stands for: the last one that has it. -/
def target? (table : List (Nat × Tree)) (n : Nat) : Option Tree :=
  (table.reverse.find? (·.1 == n)).map (·.2)

/-- Follows an alias, which takes one from the number of aliases that may still be followed. -/
def follow (table : List (Nat × Tree)) (t : Tree) : StateM Nat (Option Tree) := do
  match t with
  | .alias n =>
    let left ← get
    if left = 0 then return none
    set (left - 1)
    return target? table n
  | t => return some t

/-- Replaces aliases, down to the given depth of collections.  The whole document is gone through, so
    aliases inside values that nobody asks for count as well. -/
def expand (table : List (Nat × Tree)) : Nat → Tree → StateM Nat Node
  | depth, t => do
    match ← follow table t, depth with
    | some (.scalar _ tag text plain), _ => return .scalar tag text plain
    | some (.sequence _ tag items), depth + 1 =>
      return .sequence tag (← items.mapM fun t => expand table depth t)
    | some (.mapping _ tag entries), depth + 1 =>
      return .mapping tag (← entries.mapM fun (k, v) => do
        return (← expand table depth k, ← expand table depth v))
    | _, _ => return .bottomless

/-- The document with every alias replaced. -/
def node (t : Tree) : Node :=
  (expand t.anchored depthLimit t |>.run (aliasesPerEvent * t.events)).1

end Tree

/-- The only document of a text.  Text without a document stands for an empty mapping, and a second
    document is refused. -/
def parse? (s : String) : Option Node :=
  match documents s with
  | .ok [] => some (.mapping none [])
  | .ok [t] => some t.node
  | _ => none

end TestBench.Yaml
