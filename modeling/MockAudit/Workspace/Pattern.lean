namespace MockAudit

inductive Pattern (α : Type) where
  | empty
  | one (accepts : α → Bool)
  | many (accepts : α → Bool)
  | rest
  | andThen (first second : Pattern α)
  | orElse (first second : Pattern α)

namespace Pattern

variable {α : Type}

abbrev Positions := List Bool

def afterOne (accepts : α → Bool) (starts : Positions) (symbols : List α) : Positions :=
  false :: List.zipWith (fun start symbol => start && accepts symbol) starts symbols

/-- The positions any number of symbols of a class after the given ones; `reached` says whether the first
position is one of them in any case. -/
def afterMany (accepts : α → Bool) (reached : Bool) : Positions → List α → Positions
  | [], _ => []
  | start :: _, [] => [reached || start]
  | start :: starts, symbol :: symbols =>
      let here := reached || start
      here :: afterMany accepts (here && accepts symbol) starts symbols

def ends (symbols : List α) : Pattern α → Positions → Positions
  | .empty, starts => starts
  | .one accepts, starts => afterOne accepts starts symbols
  | .many accepts, starts => afterMany accepts false starts symbols
  | .rest, starts => List.replicate symbols.length false ++ [starts.any id]
  | .andThen first second, starts => second.ends symbols (first.ends symbols starts)
  | .orElse first second, starts =>
      List.zipWith (· || ·) (first.ends symbols starts) (second.ends symbols starts)

def accepts (pattern : Pattern α) (symbols : List α) : Bool :=
  (pattern.ends symbols (true :: List.replicate symbols.length false)).getLast? == some true

def sequence (patterns : List (Pattern α)) : Pattern α := patterns.foldr .andThen .empty

def choice : List (Pattern α) → Pattern α
  | [] => .empty
  | [only] => only
  | first :: others => .orElse first (choice others)

end Pattern
end MockAudit
