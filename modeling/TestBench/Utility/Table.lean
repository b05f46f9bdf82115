import TestBench.Utility.Text
import TestBench.Utility.Tree
import TestBench.Utility.Values
/-
  The programs by name.
-/
namespace TestBench.Utility

/-- The program of a name, if there is one. -/
def find? (name : String) : Option (Work Unit) :=
  match name with
  | "basename" => some basename
  | "cat" => some cat
  | "chmod" => some chmod
  | "cp" => some cp
  | "cut" => some cut
  | "dirname" => some dirname
  | "expr" => some expr
  | "false" => some (setStatus 1)
  | "grep" => some grep
  | "head" => some head
  | "ln" => some ln
  | "ls" => some ls
  | "md5sum" => some md5sum
  | "mkdir" => some mkdir
  | "mv" => some mv
  | "readlink" => some readlink
  | "rev" => some rev
  | "rm" => some rm
  | "rmdir" => some rmdir
  | "seq" => some seq
  | "sleep" => some sleep
  | "sort" => some sort
  | "sync" => some (pure ())
  | "tac" => some tac
  | "tail" => some tail
  | "tee" => some tee
  | "touch" => some touch
  | "tr" => some tr
  | "true" => some (pure ())
  | "uniq" => some uniq
  | "wc" => some wc
  | "yes" => some yes
  | _ => none

/-- What a program does with a job. -/
def run (work : Work Unit) (job : Job) (files : Files) : Effects :=
  ((work.run job).run { written := [], status := 0, files, ms := 0, usedInput := false }).2

end TestBench.Utility
