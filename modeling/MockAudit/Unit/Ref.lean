/-!
# References

A reference may point past the end of its table: what it refers to is then unresolved.
-/

namespace MockAudit

inductive Table where
  | node | type | method | field
deriving DecidableEq

def Table.label : Table → String
  | .node => "NodeId"
  | .type => "TypeId"
  | .method => "MethodId"
  | .field => "FieldId"

structure Ref (table : Table) where
  index : UInt32
deriving DecidableEq

abbrev NodeId := Ref .node
abbrev TypeId := Ref .type
abbrev MethodId := Ref .method
abbrev FieldId := Ref .field

namespace Ref

variable {table : Table}

instance : Inhabited (Ref table) := ⟨⟨0⟩⟩

def toNat (ref : Ref table) : Nat := ref.index.toNat

/-- The reference to position `n`; exact for positions below 2³². -/
def ofNat (n : Nat) : Ref table := ⟨UInt32.ofNat n⟩

def resolve {α : Type} (ref : Ref table) (entries : Array α) : Option α := entries[ref.toNat]?

def text (ref : Ref table) : String := table.label ++ "#" ++ ref.toNat.repr

end Ref
end MockAudit
