import MockAudit.Proofs.Unit.Tree

namespace MockAudit

open Relation (ReflTransGen TransGen)

section

variable {α : Type} {link : α → α → Prop} {a b c : α} {m n : Nat}

inductive Steps (link : α → α → Prop) (a : α) : Nat → α → Prop where
  | here : Steps link a 0 a
  | further {n : Nat} {b c : α} (steps : Steps link a n b) (next : link b c) : Steps link a (n + 1) c

theorem Steps.ahead (first : link a b) (steps : Steps link b n c) : Steps link a (n + 1) c := by
  induction steps with
  | here => exact .further .here first
  | further _ next ih => exact .further ih next

theorem Steps.trans (steps : Steps link a m b) (more : Steps link b n c) : Steps link a (m + n) c := by
  induction more with
  | here => exact steps
  | further _ next ih => exact .further ih next

theorem Steps.cases_ahead (steps : Steps link a (n + 1) c) : ∃ b, link a b ∧ Steps link b n c := by
  induction n generalizing c with
  | zero =>
      obtain _ | ⟨before, next⟩ := steps
      cases before
      exact ⟨c, next, .here⟩
  | succ n ih =>
      obtain _ | ⟨before, next⟩ := steps
      obtain ⟨b, first, later⟩ := ih before
      exact ⟨b, first, .further later next⟩

theorem reflTransGen_iff_steps : ReflTransGen link a b ↔ ∃ n, Steps link a n b := by
  constructor
  · intro reaches
    induction reaches with
    | refl => exact ⟨0, .here⟩
    | tail _ next ih =>
        obtain ⟨n, steps⟩ := ih
        exact ⟨n + 1, .further steps next⟩
  · rintro ⟨n, steps⟩
    induction steps with
    | here => exact .refl
    | further _ next ih => exact ih.tail next

theorem transGen_iff_steps : TransGen link a b ↔ ∃ n, Steps link a (n + 1) b := by
  rw [Relation.TransGen.tail'_iff]
  simp only [reflTransGen_iff_steps]
  constructor
  · rintro ⟨c, ⟨n, steps⟩, next⟩
    exact ⟨n, .further steps next⟩
  · rintro ⟨n, _ | ⟨steps, next⟩⟩
    exact ⟨_, ⟨n, steps⟩, next⟩

structure Distance (link : α → α → Prop) (a : α) (n : Nat) (b : α) : Prop where
  steps : Steps link a n b
  least : ∀ m, Steps link a m b → n ≤ m

theorem Distance.unique (first : Distance link a m b) (second : Distance link a n b) : m = n :=
  Nat.le_antisymm (first.least n second.steps) (second.least m first.steps)

theorem exists_distance : ReflTransGen link a b ↔ ∃ n, Distance link a n b := by
  rw [reflTransGen_iff_steps]
  refine ⟨fun reached => ?_, fun ⟨n, distance⟩ => ⟨n, distance.steps⟩⟩
  classical
  exact ⟨Nat.find reached, Nat.find_spec reached, fun m steps => Nat.find_min' reached steps⟩

theorem distance_zero : Distance link a 0 b ↔ b = a := by
  constructor
  · rintro ⟨⟨⟩, -⟩
    rfl
  · rintro rfl
    exact ⟨.here, fun m _ => Nat.zero_le m⟩

theorem Distance.back (distance : Distance link a (n + 1) c) : ∃ b, Distance link a n b ∧ link b c := by
  obtain _ | ⟨before, next⟩ := distance.steps
  refine ⟨_, ⟨before, fun m shorter => ?_⟩, next⟩
  exact Nat.le_of_succ_le_succ (distance.least (m + 1) (.further shorter next))

theorem distance_succ : Distance link a (n + 1) c ↔
    (∃ b, Distance link a n b ∧ link b c) ∧ ¬ ∃ m ≤ n, Distance link a m c := by
  constructor
  · intro distance
    refine ⟨distance.back, fun ⟨m, le, nearer⟩ => ?_⟩
    have same := distance.unique nearer
    omega
  · rintro ⟨⟨b, distance, next⟩, far⟩
    refine ⟨.further distance.steps next, fun m steps => ?_⟩
    obtain ⟨k, nearest⟩ := exists_distance.mp (reflTransGen_iff_steps.mpr ⟨m, steps⟩)
    have le := nearest.least m steps
    have beyond : n < k := Nat.lt_of_not_le fun near => far ⟨k, near, nearest⟩
    omega

/-- What lies on a shortest way before its end: as many different ones as there are links, each nearer than the end. -/
theorem Distance.exists_way (distance : Distance link a n b) :
    ∃ way : List α, way.length = n ∧ way.Nodup ∧
      ∀ c ∈ way, (∃ d, link c d) ∧ ∃ m < n, Distance link a m c := by
  induction n generalizing b with
  | zero => exact ⟨[], rfl, List.nodup_nil, by simp⟩
  | succ n ih =>
      obtain ⟨last, before, next⟩ := distance.back
      obtain ⟨way, length, distinct, nearer⟩ := ih before
      have fresh : last ∉ way := by
        intro again
        obtain ⟨-, m, lt, nearest⟩ := nearer last again
        exact Nat.ne_of_lt lt (nearest.unique before)
      refine ⟨last :: way, by simp [length], List.nodup_cons.mpr ⟨fresh, distinct⟩, ?_⟩
      intro c member
      rcases List.mem_cons.mp member with rfl | earlier
      · exact ⟨⟨b, next⟩, n, Nat.lt_succ_self n, before⟩
      · obtain ⟨onward, m, lt, nearest⟩ := nearer c earlier
        exact ⟨onward, m, Nat.lt_succ_of_lt lt, nearest⟩

end

section

variable {table : Table} {link : Ref table → Ref table → Prop} {a b : Ref table} {n size : Nat}

theorem Distance.le_size (inRange : ∀ {ref next}, link ref next → ref.toNat < size)
    (distance : Distance link a n b) : n ≤ size := by
  obtain ⟨way, rfl, distinct, nearer⟩ := distance.exists_way
  apply Ref.length_le_of_nodup distinct
  intro ref member
  obtain ⟨⟨next, linked⟩, -⟩ := nearer ref member
  exact inRange linked

theorem Distance.lt_size (inRange : ∀ {ref next}, link ref next → ref.toNat < size)
    (distance : Distance link a n b) (inside : b.toNat < size) : n < size := by
  obtain ⟨way, rfl, distinct, nearer⟩ := distance.exists_way
  have fresh : b ∉ way := by
    intro again
    obtain ⟨-, m, lt, nearest⟩ := nearer b again
    exact Nat.ne_of_lt lt (nearest.unique distance)
  apply Ref.length_le_of_nodup (List.nodup_cons.mpr ⟨fresh, distinct⟩)
  intro ref member
  rcases List.mem_cons.mp member with rfl | onWay
  · exact inside
  · obtain ⟨⟨next, linked⟩, -⟩ := nearer ref onWay
    exact inRange linked

end
end MockAudit
