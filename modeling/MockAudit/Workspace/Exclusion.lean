import MockAudit.Workspace.Pattern

/-!
# Exclusion patterns

`*` and `?` match slashes too; `**` stands for any number of whole segments, and only as a whole segment.
-/

namespace MockAudit

namespace Exclusion

def classMember (c : Char) : List Char → Bool
  | low :: '-' :: high :: rest => (low ≤ c && c ≤ high) || classMember c rest
  | single :: rest => c == single || classMember c rest
  | [] => false

/-- The body of a class and what follows its closing bracket. A bracket that comes first belongs to the body. -/
def classBody? : List Char → Option (List Char × List Char)
  | [] => none
  | first :: rest =>
      match rest.span (· != ']') with
      | (_, []) => none
      | (body, _ :: after) => some (first :: body, after)

def segmentsPattern : Pattern Char :=
  .orElse .empty (.orElse (.andThen (.many fun _ => true) (.one (· == '/'))) .rest)

def read? : Nat → (start : Bool) → List Char → Option (List (Pattern Char))
  | 0, _, _ => none
  | _ + 1, _, [] => some []
  | fuel + 1, _, '?' :: rest => (read? fuel false rest).map (.one (fun _ => true) :: ·)
  | fuel + 1, start, '*' :: rest =>
      match start, rest with
      | _, '*' :: '*' :: _ => none
      | true, ['*'] => some [segmentsPattern]
      | true, '*' :: '/' :: after => (read? fuel true after).map (segmentsPattern :: ·)
      | _, '*' :: _ => none
      | _, _ => (read? fuel false rest).map (.many (fun _ => true) :: ·)
  | fuel + 1, _, '[' :: '!' :: rest =>
      match classBody? rest with
      | none => none
      | some (body, after) => (read? fuel false after).map (.one (fun c => !classMember c body) :: ·)
  | fuel + 1, _, '[' :: rest =>
      match classBody? rest with
      | none => none
      | some (body, after) => (read? fuel false after).map (.one (fun c => classMember c body) :: ·)
  | fuel + 1, _, c :: rest => (read? fuel (c == '/') rest).map (.one (· == c) :: ·)

def ofText? (text : String) : Option (Pattern Char) :=
  (read? (text.length + 1) true text.toList).map Pattern.sequence

end Exclusion
end MockAudit
