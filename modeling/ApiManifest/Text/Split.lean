/-!
Cutting lists at separators and taking fixed ends off.
-/

namespace ApiManifest.Text

variable {α : Type} [BEq α]

/-- The pieces between the separators: one more than there are separators. -/
def splitOn (sep : α) : List α → List (List α)
  | [] => [[]]
  | a :: as =>
    if a == sep then [] :: splitOn sep as
    else
      match splitOn sep as with
      | [] => [[a]]
      | piece :: pieces => (a :: piece) :: pieces

def splitOnce (sep : α) : List α → Option (List α × List α)
  | [] => none
  | a :: as =>
    if a == sep then some ([], as) else (splitOnce sep as).map fun (before, after) => (a :: before, after)

def dropFront? : List α → List α → Option (List α)
  | [], as => some as
  | _ :: _, [] => none
  | f :: fs, a :: as => if f == a then dropFront? fs as else none

def dropLast? (a : α) (as : List α) : Option (List α) :=
  match as.getLast? with
  | some b => if b == a then some as.dropLast else none
  | none => none

def hasPart (part : List α) : List α → Bool
  | [] => part.isEmpty
  | a :: as => (dropFront? part (a :: as)).isSome || hasPart part as

end ApiManifest.Text
