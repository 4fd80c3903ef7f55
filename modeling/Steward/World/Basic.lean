import Steward.World.Environment
import Steward.World.Files

/-!
# The world of a process

What a process can read beside its configuration: its environment and its files; and the changes
that others make to them while it runs.

What the program reads of it is in `expand_env`, in `connect` and `get_values` of the backends, and
in `load` and `load_include_dir` of a configuration.
-/

namespace Steward

/-- The environment and the files. -/
structure World where
  /-- The environment. -/
  environment : Environment := .empty
  /-- The files, and the working directory among them. -/
  files : FileTree := {}
  deriving Inhabited

/-- Changes to a world, made in the order of the fields. -/
structure WorldChange where
  /-- Files and directories to put in place. -/
  write : List (String × Node) := []
  /-- Files and directories to take away. -/
  delete : List String := []
  /-- Variables to set. -/
  set : List (String × String) := []
  /-- Variables to take away. -/
  unset : List String := []
  deriving Inhabited

namespace World

/-- The world after a change. -/
def apply (world : World) (change : WorldChange) : World :=
  let files := change.write.foldl (fun tree w => tree.write w.1 w.2) world.files
  let files := change.delete.foldl (fun tree path => tree.delete path) files
  let env := change.set.foldl (fun e v => e.set v.1 v.2) world.environment
  let env := change.unset.foldl Environment.unset env
  ⟨env, files⟩

end World

end Steward
