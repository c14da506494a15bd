import TreeLint.Tree.Node

/-!
# Trees as listings

A parser may hand over a tree as the list of its nodes in preorder, each with the number of its
children. Read from the end, the nodes still without a parent form a forest: a node takes the
first of them as its children.
-/

namespace TreeLint

/-- A node in a listing. -/
structure Row where
  label : Label
  childCount : Nat
deriving DecidableEq, Repr

/-- The trees of a listing. -/
def forest (rows : List Row) : List Node :=
  rows.foldr (fun r trees => .mk r.label (trees.take r.childCount) :: trees.drop r.childCount) []

@[simp] theorem forest_nil : forest [] = [] := rfl

/-- The tree of a listing; an empty listing has no root. -/
def SyntaxTree.ofListing (rows : List Row) : SyntaxTree :=
  match forest rows with
  | [] => .rootless
  | root :: _ => .rooted root

mutual
/-- The listing of a tree. -/
def Node.listing : Node → List Row
  | .mk l cs => ⟨l, cs.length⟩ :: listings cs
/-- The listings of several trees, one after the other. -/
def listings : List Node → List Row
  | [] => []
  | c :: cs => c.listing ++ listings cs
end

mutual
/-- A tree is read back from its listing, whatever follows it. -/
theorem forest_listing_append (n : Node) (rest : List Row) :
    forest (n.listing ++ rest) = n :: forest rest := by
  cases n with
  | mk l cs =>
    have h := forest_listings_append cs rest
    simp only [Node.listing, List.cons_append, forest, List.foldr_cons] at h ⊢
    rw [h]
    simp
/-- Several trees are read back from their listings. -/
theorem forest_listings_append (cs : List Node) (rest : List Row) :
    forest (listings cs ++ rest) = cs ++ forest rest := by
  cases cs with
  | nil => rfl
  | cons c cs =>
    rw [listings, List.append_assoc, forest_listing_append c, forest_listings_append cs]
    rfl
end

/-- Every tree is read back from its listing. -/
theorem SyntaxTree.ofListing_listing (n : Node) : ofListing n.listing = .rooted n := by
  have h := forest_listing_append n []
  rw [List.append_nil] at h
  simp [ofListing, h]

end TreeLint
