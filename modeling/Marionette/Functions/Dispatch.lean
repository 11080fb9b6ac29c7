import Marionette.DispatchTree
import Marionette.Functions.Basic

/-!
# Functions of the dispatch trees

Each branch of a tree becomes a function that calls the function of a child if the frame score lies
in the range of the child.  The exact tree and the seeking tree share their leaves.

- `Stage.exactFunctions`: the branches for natural playback, which applies frames one by one.
- `Stage.seekFunctions`: the branches for seeking, which applies the latest frame.
- `Stage.dispatchFunctions`: both trees with their entry points.
-/

namespace Marionette

namespace Stage

variable (s : Stage)

/-- Calls a function if the frame score lies between two ticks. -/
def guardedCall (lo hi : Nat) (path : FunctionPath) : Command :=
  .execute [ifOwn s.names.frame (.between (Int32.ofNat lo) (Int32.ofNat hi))] (.function path)

/-- The function of a node of the exact tree. -/
def exactTarget (paths : ClipPaths) : DispatchNode → FunctionPath
  | .leaf frame => paths.frame frame.tick
  | .branch lo hi _ _ => paths.branch lo hi

/-- The function of a node of the seeking tree. -/
def seekTarget (paths : ClipPaths) : DispatchNode → FunctionPath
  | .leaf frame => paths.frame frame.tick
  | .branch lo hi _ _ => paths.seekBranch lo hi

/-- Calls a node of the exact tree on exactly its ticks. -/
def exactCall (paths : ClipPaths) (n : DispatchNode) : Command :=
  s.guardedCall n.lo n.hi (exactTarget paths n)

/-- The branches of the exact tree, each before those below it. -/
def exactFunctions (paths : ClipPaths) : DispatchNode → List GeneratedFunction
  | .leaf _ => []
  | .branch lo hi left right =>
    (paths.branch lo hi, [s.exactCall paths left, s.exactCall paths right]) ::
      (exactFunctions paths left ++ exactFunctions paths right)

/-- The branches of the seeking tree, each before those below it; the last tick that the node
serves is `upper`. -/
def seekFunctions (paths : ClipPaths) (upper : Nat) : DispatchNode → List GeneratedFunction
  | .leaf _ => []
  | .branch lo hi left right =>
    let body := ((DispatchNode.branch lo hi left right).floorRanges upper).map
      fun (n, first, last) => s.guardedCall first last (seekTarget paths n)
    (paths.seekBranch lo hi, body) ::
      (seekFunctions paths (right.lo - 1) left ++ seekFunctions paths upper right)

/-- Both trees with their entry points. -/
def dispatchFunctions (paths : ClipPaths) (tree : DispatchTree) : List GeneratedFunction :=
  match tree.root with
  | none =>
    [(paths.dispatch, [.comment "no frames"]), (paths.seek, [.comment "no frames"])]
  | some root =>
    let upper := tree.duration - 1
    [(paths.dispatch, [s.exactCall paths root])] ++ s.exactFunctions paths root ++
      [(paths.seek, [s.guardedCall root.lo upper (seekTarget paths root)])] ++
      s.seekFunctions paths upper root

end Stage

end Marionette
