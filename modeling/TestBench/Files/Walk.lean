import TestBench.Files.Lookup
/-
  Walking a directory tree.

  The walk starts at a path and goes down directory by directory, through links as well, and gives the
  paths of the files it meets.  A link to a directory that the walk is already inside of is left out,
  and so is a link that leads nowhere.  Paths are spelled with the start in front.
-/
namespace TestBench

namespace Files

/-- The files below a node that `path` leads to, at most so many levels down; `inside` are the places
    of the directories that lead there. -/
def walkNode (files : Files) : Nat → List Place → String → Spot → List String
  | depth, inside, path, spot =>
    match spot.node? with
    | some (.file ..) => [path]
    | some (.directory entries) =>
      match depth with
      | 0 => []
      | depth + 1 =>
        entries.flatMap fun (name, node) =>
          let child := Path.join path name
          match node with
          | .link target =>
            match files.follow linkLimit spot.place target with
            | .error _ => []
            | .ok aim =>
              if aim.node?.any (·.isDirectory) && (spot.place :: inside).contains aim.place then []
              else files.walkNode depth (spot.place :: inside) child aim
          | node => files.walkNode depth (spot.place :: inside) child ⟨spot.place ++ [name], some node⟩
    | _ => []

/-- More levels than any walk can go down: a walk passes a link only to a directory it is not inside
    of, and between two links it goes down the tree. -/
def walkLimit (files : Files) : Nat := (files.root.count + 1) * (files.root.count + 1)

/-- The files at and below a path, at most `depth?` levels down. -/
def walk (files : Files) (depth? : Option Nat) (start : String) : List String :=
  match files.locate start with
  | .error _ => []
  | .ok spot => files.walkNode (depth?.getD files.walkLimit) [] start spot

end Files
end TestBench
