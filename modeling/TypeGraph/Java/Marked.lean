/-! Trees with marks where faults stand in them, and the search for the first fault. -/

namespace TypeGraph.Java

/-- A tree of which each node may be marked, to tell that it is a fault or has one below it. -/
inductive Marked (α : Type) where
  /-- A node with what is known of it, whether it is marked, and the nodes right below it. -/
  | node (content : α) (mark : Bool) (children : List (Marked α))

/-- What a look for faults in a tree comes to. -/
inductive Verdict (α : Type) where
  | sound
  | faultAt (fault : Marked α)
  /-- The tree is marked, but no fault is found in it. -/
  | faultSomewhere

namespace Marked

variable {α : Type}

/-- What is known of a node. -/
def content : Marked α → α
  | node content _ _ => content

/-- Whether a node is marked. -/
def mark : Marked α → Bool
  | node _ mark _ => mark

/-- The nodes right below a node. -/
def children : Marked α → List (Marked α)
  | node _ _ children => children

/-- A node above others, marked if it is a fault or one of them is marked. -/
def above (isFault : α → Bool) (content : α) (children : List (Marked α)) : Marked α :=
  node content (isFault content || children.any mark) children

mutual
/-- The first fault of a tree, where nodes without a mark are passed over with all below them. -/
def firstFault? (isFault : α → Bool) : Marked α → Option (Marked α)
  | node content mark children =>
    if isFault content then some (node content mark children)
    else if mark then firstFaultAmong? isFault children
    else none
/-- The first fault of several trees. -/
def firstFaultAmong? (isFault : α → Bool) : List (Marked α) → Option (Marked α)
  | [] => none
  | t :: rest => match firstFault? isFault t with
    | some fault => some fault
    | none => firstFaultAmong? isFault rest
end

/-- Whether a tree is sound, which its mark tells, and where it is not if a fault is found. -/
def verdict (isFault : α → Bool) (t : Marked α) : Verdict α :=
  if t.mark then match t.firstFault? isFault with
    | some fault => .faultAt fault
    | none => .faultSomewhere
  else .sound

end Marked

end TypeGraph.Java
