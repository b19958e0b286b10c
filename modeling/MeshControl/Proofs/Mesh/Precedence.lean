import Mathlib
import MeshControl.Proofs.Collector.Order
import MeshControl.Proofs.Mesh.Services

/-!
# The rule that a request meets

Requests meet the first rule that applies to them. Rules stand in the order of their paths, so that
this is the one with the longest path that the request begins with, and no rule keeps requests from
one behind it that suits them better.

## Main definitions

* `VirtualService.Closest` — the rule that suits a request best, wherever it stands.
* `VirtualService.LongestFirst` — every request meets that rule, and each path has one.
* `RouteRecord.longestFirst_of_mem` — so it is in every virtual service.
-/

namespace MeshControl

namespace VirtualService

/-- A rule applies to a request if it asks for nothing, or for a path that the request begins
with. -/
def Rule.Suits (x : Rule) (request : String) : Prop :=
  x.IsFor none ∨ ∃ text, x.IsFor (some text) ∧ text.toList <+: request.toList

/-- A rule applies to a request, and no other asks for a longer path that the request begins
with. -/
structure Closest (s : VirtualService) (request : String) (x : Rule) : Prop where
  mem : x ∈ s.rules
  suits : x.Suits request
  longest : ∀ y ∈ s.rules, ∀ text, y.IsFor (some text) → text.toList <+: request.toList →
    ∃ own, x.IsFor (some own) ∧ text.length ≤ own.length

/-- Every request meets the rule that suits it best, and every path has a rule of its own. -/
structure LongestFirst (s : VirtualService) (paths : List (Option String)) : Prop where
  meets : ∀ request x, s.ruleFor? request = some x ↔ s.Closest request x
  distinct : (s.rules.map (·.conditions)).Nodup
  /-- A rule that asks for nothing stands behind all others. -/
  last : ∀ x ∈ s.rules.dropLast, ¬ x.IsFor none
  path : ∀ path ∈ paths, ∃! x, x ∈ s.rules ∧ x.IsFor path
  rule : ∀ x ∈ s.rules, (∃ path ∈ paths, x.IsFor path) ∧ x.destinations ≠ []

/-- A rule asks for a path that comes before the one that another rule asks for. -/
def Rule.Before (x y : Rule) : Prop := ∃ p q, x.IsFor p ∧ y.IsFor q ∧ PathPrecedes p q

end VirtualService

/-! ## First matches -/

/-- In a list that is ordered by a relation, the first element with a property is the one that
stands before all others with it. -/
theorem find?_eq_some_iff_of_pairwise {α : Type} {R : α → α → Prop} {l : List α}
    (ordered : l.Pairwise R) (asymm : ∀ a b, R a b → ¬ R b a) {p : α → Bool} {a : α} :
    l.find? p = some a ↔ a ∈ l ∧ p a ∧ ∀ b ∈ l, p b → b = a ∨ R a b := by
  rw [List.find?_eq_some_iff_append]
  constructor
  · rintro ⟨holds, before, after, rfl, none⟩
    obtain ⟨-, later, -⟩ := List.pairwise_append.mp ordered
    refine ⟨by simp, holds, fun b hb hp => ?_⟩
    rcases List.mem_append.mp hb with hb | hb
    · exact absurd (none b hb) (by simp [hp])
    · exact (List.mem_cons.mp hb).imp_right ((List.pairwise_cons.mp later).1 b)
  · rintro ⟨ha, holds, first⟩
    obtain ⟨before, after, rfl⟩ := List.append_of_mem ha
    refine ⟨holds, before, after, rfl, fun b hb => ?_⟩
    have earlier : R b a := (List.pairwise_append.mp ordered).2.2 b hb a List.mem_cons_self
    by_contra hp
    rcases first b (by simp [hb]) (by simpa using hp) with rfl | later
    · exact asymm b b earlier earlier
    · exact asymm b a earlier later

/-! ## Paths -/

theorem PathPrecedes.asymm {p q : Option String} (h : PathPrecedes p q) : ¬ PathPrecedes q p := by
  cases h with
  | longer shorter =>
    rintro (longer | ⟨same, -⟩)
    · exact lt_asymm shorter longer
    · omega
  | text same before =>
    rintro (longer | ⟨-, after⟩)
    · omega
    · exact lt_asymm before after
  | qualified => nofun

theorem utf8ByteSize_lt_of_prefix {p q : String} (h : p.toList <+: q.toList)
    (shorter : p.length < q.length) : p.utf8ByteSize < q.utf8ByteSize := by
  obtain ⟨rest, hr⟩ := h
  have whole : q = p ++ String.ofList rest := by simp [← String.toList_inj, hr]
  have more : String.ofList rest ≠ "" := by
    rintro none
    simp [whole, none] at shorter
  have := mt String.utf8ByteSize_eq_zero_iff.mp more
  rw [whole, String.utf8ByteSize_append]
  omega

/-- Of two paths that a request begins with, the one that comes first is longer. -/
theorem PathPrecedes.length_lt {p q request : String} (h : PathPrecedes (some p) (some q))
    (hp : p.toList <+: request.toList) (hq : q.toList <+: request.toList) :
    q.length < p.length := by
  by_contra short
  have inside : p.toList <+: q.toList :=
    List.prefix_of_prefix_length_le hp hq (by
      rw [String.length_toList, String.length_toList]
      exact not_lt.mp short)
  rcases Nat.lt_or_eq_of_le (not_lt.mp short) with shorter | same
  · have bytes := utf8ByteSize_lt_of_prefix inside shorter
    cases h <;> omega
  · have length : p.toList.length = q.toList.length := by
      rw [String.length_toList, String.length_toList, same]
    obtain rfl : p = q := String.toList_inj.mp (inside.eq_of_length length)
    exact h.asymm h

namespace VirtualService

/-! ## Rules -/

namespace Rule

theorem applies_iff {x : Rule} {path : Option String} (h : x.IsFor path) (request : String) :
    x.applies request ↔ x.Suits request := by
  have conditions : x.conditions = asking path := h
  constructor
  · intro met
    cases path with
    | none => exact .inl h
    | some text =>
      refine .inr ⟨text, h, ?_⟩
      simpa [applies, conditions, asking, PathMatch.holds] using met
  · rintro (all | ⟨text, asks, begins⟩)
    · simp [applies, show x.conditions = [] from all]
    · simp [applies, show x.conditions = [.beginsWith text] from asks, PathMatch.holds, begins]

theorem Before.asymm {x y : Rule} (h : x.Before y) : ¬ y.Before x := by
  obtain ⟨p, q, hx, hy, before⟩ := h
  rintro ⟨q', p', hy', hx', after⟩
  obtain rfl := hx.unique hx'
  obtain rfl := hy.unique hy'
  exact before.asymm after

theorem Suits.begins {x : Rule} {request text : String} (h : x.Suits request)
    (asks : x.IsFor (some text)) : text.toList <+: request.toList := by
  rcases h with all | ⟨own, own_asks, begins⟩
  · cases all.unique asks
  · cases own_asks.unique asks
    exact begins

end Rule

section Ordered

variable {s : VirtualService} (ordered : s.rules.Pairwise Rule.Before)

include ordered

theorem before_or_before {x y : Rule} (hx : x ∈ s.rules) (hy : y ∈ s.rules) (other : x ≠ y) :
    x.Before y ∨ y.Before x := by
  have symmetric : Std.Symm fun x y : Rule => x.Before y ∨ y.Before x := ⟨fun _ _ => Or.symm⟩
  have either : s.rules.Pairwise fun x y => x.Before y ∨ y.Before x := ordered.imp .inl
  exact either.forall hx hy other

/-- Where rules stand in the order of their paths, every request meets the one that suits it
best. -/
theorem ruleFor?_eq_some_iff (asks : ∀ x ∈ s.rules, ∃ path, x.IsFor path) {request : String}
    {x : Rule} : s.ruleFor? request = some x ↔ s.Closest request x := by
  rw [ruleFor?, find?_eq_some_iff_of_pairwise ordered fun _ _ => Rule.Before.asymm]
  constructor
  · rintro ⟨hx, met, first⟩
    obtain ⟨_, hpath⟩ := asks x hx
    have suits := (Rule.applies_iff hpath request).mp met
    refine ⟨hx, suits, fun y hy text asked begins => ?_⟩
    rcases first y hy ((Rule.applies_iff asked _).mpr (.inr ⟨text, asked, begins⟩)) with
      rfl | ⟨p, q, hp, hq, before⟩
    · exact ⟨text, asked, le_rfl⟩
    · obtain rfl := hq.unique asked
      obtain ⟨own, rfl⟩ : ∃ own, p = some own := by cases before <;> exact ⟨_, rfl⟩
      exact ⟨own, hp, (before.length_lt (suits.begins hp) begins).le⟩
  · rintro ⟨hx, suits, longest⟩
    obtain ⟨_, hpath⟩ := asks x hx
    refine ⟨hx, (Rule.applies_iff hpath _).mpr suits, fun y hy met => ?_⟩
    by_contra! other
    obtain ⟨q, p, hq, hp, before⟩ :=
      (before_or_before ordered hx hy other.1.symm).resolve_left other.2
    obtain ⟨text, rfl⟩ : ∃ text, q = some text := by cases before <;> exact ⟨_, rfl⟩
    have begins := ((Rule.applies_iff hq request).mp met).begins hq
    obtain ⟨own, asked, longer⟩ := longest y hy text hq begins
    obtain rfl := hp.unique asked
    exact absurd (before.length_lt begins (suits.begins hp)) (by omega)

theorem not_isFor_none_of_mem_dropLast {x : Rule} (hx : x ∈ s.rules.dropLast) :
    ¬ x.IsFor none := by
  intro all
  rcases List.eq_nil_or_concat' s.rules with none | ⟨rules, y, whole⟩
  · simp [none] at hx
  · rw [whole, List.dropLast_concat] at hx
    rw [whole] at ordered
    obtain ⟨p, q, hp, -, before⟩ :=
      (List.pairwise_append.mp ordered).2.2 x hx y (List.mem_singleton_self y)
    obtain rfl := hp.unique all
    cases before

end Ordered

variable {ingress : Ingress} {host : MeshHost} {records : List RouteRecord}

theorem pairwise_before : (ofRecords ingress host records).rules.Pairwise Rule.Before := by
  rw [ofRecords, List.pairwise_map]
  refine (Table.group _ _).increasing.imp fun {e e'} h => ?_
  exact ⟨e.1.path, e'.1.path, rfl, rfl, comparePaths_eq_lt_iff.mp h⟩

theorem longestFirst_ofRecords :
    (ofRecords ingress host (RouteRecord.ofHost host records)).LongestFirst
      ((RouteRecord.ofHost host records).map (·.path)) where
  meets request x := by
    refine ruleFor?_eq_some_iff pairwise_before fun x hx => ?_
    obtain ⟨path, -, spreads⟩ := serves_ofRecords.rule x hx
    exact ⟨path, spreads.isFor⟩
  distinct := nodup_conditions _
  last x hx := not_isFor_none_of_mem_dropLast pairwise_before hx
  path := by
    intro path hpath
    obtain ⟨r, hr, rfl⟩ := List.mem_map.mp hpath
    obtain ⟨member, same⟩ := RouteRecord.mem_ofHost.mp hr
    exact serves_ofRecords.path r member same
  rule := by
    intro x hx
    obtain ⟨path, ⟨r, hr, same, rfl⟩, spreads⟩ := serves_ofRecords.rule x hx
    refine ⟨⟨_, List.mem_map_of_mem (RouteRecord.mem_ofHost.mpr ⟨hr, same⟩), spreads.isFor⟩, ?_⟩
    have listed := (spreads.process r.processId).mpr ⟨r, hr, same, rfl, rfl⟩
    exact fun none => by simp [none] at listed

end VirtualService

/-- In every virtual service, requests meet the rule with the longest path that they begin with. -/
theorem RouteRecord.longestFirst_of_mem (ingress : Ingress) (records : List RouteRecord) :
    ∀ x ∈ virtualServices ingress records, ∃ (host : MeshHost) (s : VirtualService),
      x = host.virtualService s ∧ s.LongestFirst ((ofHost host records).map (·.path)) := by
  intro x hx
  rw [virtualServices_eq_perHost] at hx
  obtain ⟨host, -, rfl⟩ := mem_perHost.mp hx
  exact ⟨host, _, rfl, VirtualService.longestFirst_ofRecords⟩

/-- Paths that begin with each other, paths of one length in bytes but not in letters, the empty
path and none. -/
theorem RouteRecord.longestFirst_of_mem_nested :
    let records : List RouteRecord :=
      [none, some "/a", some "", some "/a/é", some "/a/bc", some "/a/b"].map
        fun path => ⟨"shop.example", path, "p-web", "s-1", ∅, 100, false, none⟩
    ∃ x ∈ virtualServices .standard records, ∃ (host : MeshHost) (s : VirtualService),
      x = host.virtualService s ∧ s.LongestFirst ((ofHost host records).map (·.path)) := by
  intro records
  have some : ofHost ⟨"shop.example", false⟩ records ≠ [] := by decide
  have member : MeshHost.virtualService ⟨"shop.example", false⟩ _ ∈
      virtualServices .standard records :=
    mem_virtualServices.mpr ⟨some, rfl⟩
  exact ⟨_, member, longestFirst_of_mem .standard records _ member⟩

example :
    let records : List RouteRecord :=
      [none, some "/a", some "", some "/a/é", some "/a/bc", some "/a/b"].map
        fun path => ⟨"shop.example", path, "p-web", "s-1", ∅, 100, false, none⟩
    let s := VirtualService.ofRecords .standard ⟨"shop.example", false⟩ records
    (s.ruleFor? "/a/bcd").map (·.conditions) = some [.beginsWith "/a/bc"] ∧
      (s.ruleFor? "/b").map (·.conditions) = some [.beginsWith ""] := by
  decide

end MeshControl
