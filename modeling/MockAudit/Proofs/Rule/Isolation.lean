import MockAudit.Proofs.Rule.Scope
import MockAudit.Proofs.Unit.Validation

namespace MockAudit

def NodeKind.receiver? : NodeKind → Option NodeId
  | .call _ receiver _ _ => receiver
  | _ => none

structure Outlook where
  symbols : Symbols
  kind : Option NodeKind
  ancestors : List (NodeId × Option NodeKind)
  receiver : Option NodeKind
deriving DecidableEq

namespace CompilationUnit

def outlook (unit : CompilationUnit) (id : NodeId) : Outlook where
  symbols := unit.symbols
  kind := unit.kind? id
  ancestors := (unit.ancestors id).map fun ancestor => (ancestor, unit.kind? ancestor)
  receiver := ((unit.kind? id).bind (·.receiver?)).bind unit.kind?

theorem corresponds_of_outlook_eq {unit other : CompilationUnit} {id : NodeId}
    (same : other.outlook id = unit.outlook id) (v : Vocabulary) :
    Site.Corresponds .identity ⟨unit, v, id⟩ ⟨other, v, id⟩ := by
  obtain ⟨symbols, kind, around, receiver⟩ := Outlook.mk.inj same
  have ancestors : other.ancestors id = unit.ancestors id := by
    simpa [Function.comp_def] using congrArg (List.map Prod.fst) around
  rw [ancestors] at around
  constructor
  · rw [Site.symbols, Site.symbols, symbols]
    exact unit.symbols.renumbered_self
  · exact v.sameIdiom_self
  · simp [Site.scope, ancestors]
  · intro seen inScope
    rw [Renumbering.identity_ref, Renumbering.identity_kind, Option.map_id]
    rcases List.mem_cons.mp inScope with rfl | above
    · exact kind
    · exact (Prod.mk.inj (List.map_inj_left.mp around seen above)).2
  · intro name called method result isCall
    rw [Renumbering.identity_ref, Renumbering.identity_kind, Option.map_id]
    have here : unit.kind? id = some (.call name (some called) method result) := isCall
    rw [kind, here] at receiver
    exact receiver

end CompilationUnit

/-- Where two units offer the same outlook, every rule of the catalogue, at any severity, finds the same in both. -/
theorem findings_eq_of_outlook_eq {unit other : CompilationUnit} {id : NodeId}
    (same : other.outlook id = unit.outlook id) (v : Vocabulary) {rule : Rule} (builtIn : rule.IsBuiltIn) :
    rule.findings ⟨other, v, id⟩ = rule.findings ⟨unit, v, id⟩ := by
  have found := builtIn.isInvariant .identity ⟨unit, v, id⟩ ⟨other, v, id⟩
    (CompilationUnit.corresponds_of_outlook_eq same v)
  rwa [Renumbering.identity_finding, List.map_id] at found

def delegatingMock : Draft where
  path := "CartTest.java"
  source := some "new MockUp<Cart>() { @Mock void pay() { it.pay(); } }"
  nodes := #[⟨.compilationUnit, ⟨0, 53⟩, [⟨1⟩]⟩, ⟨.anonymousClass (some ⟨1⟩), ⟨19, 34⟩, [⟨2⟩]⟩,
    ⟨.methodDecl ⟨3⟩ (some ⟨0⟩), ⟨21, 30⟩, [⟨3⟩, ⟨4⟩]⟩, ⟨.simpleName "pay" none, ⟨32, 3⟩, []⟩,
    ⟨.call ⟨6⟩ (some ⟨5⟩) (some ⟨1⟩) none, ⟨40, 8⟩, [⟨5⟩, ⟨6⟩]⟩,
    ⟨.simpleName "it" (some (.var ⟨0⟩)), ⟨40, 2⟩, []⟩, ⟨.simpleName "pay" none, ⟨43, 3⟩, []⟩]
  symbols :=
    { types := #[{ name := "MockUp", qualifiedName := "mockit.MockUp", typeArguments := [⟨2⟩] },
        { name := "", qualifiedName := "", superclass := some ⟨0⟩ },
        { name := "Cart", qualifiedName := "shop.Cart", methods := [⟨1⟩] }]
      methods := #[{ name := "pay", declaringType := ⟨1⟩, annotations := [⟨"mockit.Mock", .empty⟩] },
        { name := "pay", declaringType := ⟨2⟩ }]
      fields := #[⟨"it", some ⟨1⟩, some ⟨2⟩, true⟩] }

/-- The same call in another tree: the receiver stands beside the method, the names are something else, there is an
import, and a line index takes the place of the text. -/
def rearrangedMock : Draft :=
  { delegatingMock with
    source := none
    lineStarts := some [0, 7]
    length := some 90
    nodes := #[⟨.compilationUnit, ⟨3, 9⟩, [⟨7⟩, ⟨1⟩]⟩, ⟨.anonymousClass (some ⟨1⟩), ⟨1, 1⟩, [⟨2⟩, ⟨5⟩, ⟨6⟩]⟩,
      ⟨.methodDecl ⟨3⟩ (some ⟨0⟩), ⟨8, 2⟩, [⟨4⟩]⟩, ⟨.importDecl "mockit.Mock" false, ⟨0, 0⟩, []⟩,
      ⟨.call ⟨6⟩ (some ⟨5⟩) (some ⟨1⟩) none, ⟨89, 7⟩, []⟩,
      ⟨.simpleName "it" (some (.var ⟨0⟩)), ⟨60, 2⟩, []⟩, ⟨.block, ⟨4, 4⟩, []⟩,
      ⟨.importDecl "mockit.MockUp" false, ⟨0, 7⟩, [⟨3⟩]⟩] }

theorem findings_eq_of_outlook_eq_rearrangedMock : ∃ unit other, delegatingMock.validate = .ok unit ∧
    rearrangedMock.validate = .ok other ∧ other.outlook ⟨4⟩ = unit.outlook ⟨4⟩ ∧
    (Rule.selfInvocation .error).findings ⟨other, {}, ⟨4⟩⟩ = (Rule.selfInvocation .error).findings ⟨unit, {}, ⟨4⟩⟩ ∧
    ((Rule.selfInvocation .error).findings ⟨unit, {}, ⟨4⟩⟩).map (·.anchor) = [⟨4⟩] := by
  obtain ⟨unit, valid, found⟩ := Draft.exists_of_validate_map (show (delegatingMock.validate.map fun unit =>
    ((Rule.selfInvocation .error).findings ⟨unit, {}, ⟨4⟩⟩).map (·.anchor)) = .ok [⟨4⟩] by decide +kernel)
  have outlooks : rearrangedMock.validate.map (·.outlook ⟨4⟩) = delegatingMock.validate.map (·.outlook ⟨4⟩) := by
    decide +kernel
  rw [valid] at outlooks
  obtain ⟨other, accepted, same⟩ := Draft.exists_of_validate_map outlooks
  have builtIn : (Rule.selfInvocation .error).IsBuiltIn := ⟨"ML007", .error, rfl⟩
  exact ⟨unit, other, valid, accepted, same, findings_eq_of_outlook_eq same {} builtIn, found⟩

end MockAudit
