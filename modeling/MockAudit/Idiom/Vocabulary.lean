namespace MockAudit

structure Vocabulary where
  baseType : String := "mockit.MockUp"
  marker : String := "mockit.Mock"
  reentrancy : String := "reentrant"
  accessor : String := "getMockInstance"
  delegate : String := "it"
  constructorName : String := "$init"
  /-- An import of a type whose name starts like this shows that a file uses the framework. -/
  importStem : String := "mockit.Mock"
  package : String := "mockit"
deriving DecidableEq

namespace Vocabulary

instance : Inhabited Vocabulary := ⟨{}⟩

def recognises (v : Vocabulary) (name : String) (onDemand : Bool) : Bool :=
  if onDemand then name == v.package else v.importStem.toList.isPrefixOf name.toList

def simpleName (qualified : String) : String :=
  String.ofList (qualified.toList.reverse.takeWhile (· != '.')).reverse

def markerName (v : Vocabulary) : String := simpleName v.marker

def baseName (v : Vocabulary) : String := simpleName v.baseType

end Vocabulary
end MockAudit
