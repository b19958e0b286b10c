import Mathlib
import MeshControl.Proofs.Publisher.Run

/-!
# Versions over the life of a publisher

The snapshots that a sink takes come from releases that follow each other: every kind is revised,
and some kind really changes. Ticks without a change and ticks that the sink refuses add nothing to
that row. So the versions of a kind count how often its resources changed, whatever happens in
between.

## Main definitions

* `Publisher.Succeeds` — releases that the sink takes right after others.
* `Publisher.Later` — releases that the sink takes at some time after others.
* `Publisher.VersionLaw` — what versions tell about a row of snapshots.
* `Publisher.versionLaw_taken` — the law for every run.
-/

namespace MeshControl

namespace Publisher

/-- Every kind was revised, and the resources of some kind changed. -/
structure Succeeds (before after : Releases) : Prop where
  revised : ∀ kind, ∃ made, after.get? kind = revise (before.get? kind) made
  differs : ∃ kind, (after.get? kind).map (·.resources) ≠ (before.get? kind).map (·.resources)

/-- Every kind is still there, with the same release or at a greater number. -/
def Later (before after : Releases) : Prop :=
  ∀ kind r, before.get? kind = some r →
    ∃ r', after.get? kind = some r' ∧ (r' = r ∨ r.number < r'.number)

/-- What versions tell about a row of snapshots. -/
structure VersionLaw (snapshots : List Snapshot) : Prop where
  /-- A kind that was in no snapshot before appears at version 1. -/
  first : ∀ before s after kind r, snapshots = before ++ s :: after →
    (∀ s' ∈ before, s'.get? kind = none) → s.get? kind = some r → r.version = "1"
  /-- A kind stays from one snapshot to the next. It keeps its version if its resources are the
  same, and gets the next one otherwise. -/
  next : snapshots.IsChain fun s s' => ∀ kind r, s.get? kind = some r →
    ∃ r', s'.get? kind = some r' ∧ (r'.resources = r.resources → r'.version = r.version) ∧
      (r'.resources ≠ r.resources →
        ∃ n : Nat, r.version = toString n ∧ r'.version = toString (n + 1))
  differs : snapshots.IsChain fun s s' =>
    ∃ kind, (s'.get? kind).map (·.resources) ≠ (s.get? kind).map (·.resources)
  determined : ∀ s ∈ snapshots, ∀ s' ∈ snapshots, ∀ kind r r',
    s.get? kind = some r → s'.get? kind = some r' → r.version = r'.version →
      r.resources = r'.resources
  increasing : snapshots.Pairwise fun s s' => ∀ kind r, s.get? kind = some r →
    ∃ r', s'.get? kind = some r' ∧
      ∃ m n : Nat, m ≤ n ∧ r.version = toString m ∧ r'.version = toString n

/-! ## One tick -/

theorem succeeds_next {p : Publisher} {inputs : MeshInputs}
    (changed : ∃ kind, p.Changes inputs kind) : Succeeds p.accepted (p.next inputs) := by
  refine ⟨fun kind => ⟨inputs.resources? kind, get?_next p inputs kind⟩, ?_⟩
  obtain ⟨kind, resources, made, differs⟩ := changed
  obtain ⟨number, revised⟩ := revise_made (p.accepted.get? kind) resources
  refine ⟨kind, ?_⟩
  rw [get?_next, made, revised, Option.map_some]
  exact differs.symm

theorem Succeeds.later {before after : Releases} (h : Succeeds before after) :
    Later before after := by
  intro kind r hr
  obtain ⟨made, revised⟩ := h.revised kind
  rw [hr] at revised
  obtain same | ⟨resources, _, changed⟩ := revise_some r made
  · exact ⟨r, revised.trans same, .inl rfl⟩
  · exact ⟨_, revised.trans changed, .inr (Nat.lt_succ_self _)⟩

theorem later_refl (releases : Releases) : Later releases releases :=
  fun _ r hr => ⟨r, hr, .inl rfl⟩

theorem Later.trans {a b c : Releases} (hab : Later a b) (hbc : Later b c) : Later a c := by
  intro kind r hr
  obtain ⟨r', hr', same | less⟩ := hab kind r hr
  · subst same
    exact hbc kind r' hr'
  · obtain ⟨r'', hr'', h⟩ := hbc kind r' hr'
    refine ⟨r'', hr'', .inr ?_⟩
    obtain rfl | less' := h <;> omega

instance : Trans Later Later Later := ⟨Later.trans⟩

/-- A tick adds at most one to a number. -/
theorem number_after_le {p : Publisher} {bound : Nat}
    (h : ∀ kind r, p.accepted.get? kind = some r → r.number ≤ bound) (t : Tick)
    {kind : ResourceKind} {r : Release} (hr : (p.after t).accepted.get? kind = some r) :
    r.number ≤ bound + 1 := by
  by_cases refused : (p.outcome t).refused
  · rw [after_of_refused p t refused] at hr
    exact (h kind r hr).trans (Nat.le_succ _)
  · rw [accepted_after p t refused, get?_next] at hr
    cases before : p.accepted.get? kind with
    | none =>
      rw [before] at hr
      rw [number_of_revise_none hr]
      exact Nat.le_add_left 1 bound
    | some r₀ =>
      have bounded := h kind r₀ before
      rw [before] at hr
      obtain same | ⟨_, _, changed⟩ := revise_some r₀ (t.inputs.resources? kind)
      · obtain rfl : r₀ = r := Option.some.inj (same.symm.trans hr)
        omega
      · obtain rfl : _ = r := Option.some.inj (changed.symm.trans hr)
        exact Nat.succ_le_succ bounded

/-- No number exceeds the number of ticks, so that a counter of 64 bits does not overflow in the
life of a publisher. -/
theorem number_run_le (ticks : List Tick) {kind : ResourceKind} {r : Release}
    (hr : (init.run ticks).accepted.get? kind = some r) : r.number ≤ ticks.length := by
  induction ticks using List.reverseRecOn generalizing kind r with
  | nil => nomatch (hr : none = some r)
  | append_singleton ticks t ih =>
    rw [run_append] at hr
    rw [List.length_append, List.length_singleton]
    exact number_after_le (fun _ _ => ih) t hr

/-! ## A row of releases -/

variable {commits : List Releases}

/-- What the sink takes in a run is a row of releases, each right after the one before. -/
theorem exists_commits (p : Publisher) (ticks : List Tick) :
    ∃ commits, p.taken ticks = commits.map snapshot ∧
      (p.accepted :: commits).IsChain Succeeds := by
  induction ticks generalizing p with
  | nil => exact ⟨[], rfl, .singleton _⟩
  | cons t ticks ih =>
    obtain ⟨commits, rest, chain⟩ := ih (p.after t)
    rw [taken_cons, rest]
    obtain ⟨_, same, unchanged⟩ | ⟨changed, _, moved, published⟩ | ⟨_, _, _, same, failed⟩ :=
      p.tick_cases t
    · rw [same] at chain
      exact ⟨commits, by rw [unchanged]; rfl, chain⟩
    · rw [moved] at chain
      refine ⟨p.next t.inputs :: commits, ?_, chain.cons_cons (succeeds_next changed)⟩
      rw [published]
      rfl
    · rw [same] at chain
      exact ⟨commits, by rw [failed]; rfl, chain⟩

theorem pairwise_later (chain : commits.IsChain Succeeds) : commits.Pairwise Later :=
  List.isChain_iff_pairwise.mp (chain.imp fun _ _ => Succeeds.later)

/-- Of two releases in a row one is later than the other. -/
theorem later_or_later (chain : commits.IsChain Succeeds) {a b : Releases} (ha : a ∈ commits)
    (hb : b ∈ commits) : Later a b ∨ Later b a := by
  have symmetric : Std.Symm fun a b => Later a b ∨ Later b a := ⟨fun _ _ => Or.symm⟩
  have either : commits.Pairwise fun a b => Later a b ∨ Later b a :=
    (pairwise_later chain).imp .inl
  exact either.forall_of_forall (fun x _ => .inl (later_refl x)) ha hb

theorem eq_of_number_eq (chain : commits.IsChain Succeeds) {a b : Releases} (ha : a ∈ commits)
    (hb : b ∈ commits) {kind : ResourceKind} {r r' : Release} (hr : a.get? kind = some r)
    (hr' : b.get? kind = some r') (same : r.number = r'.number) : r = r' := by
  obtain h | h := later_or_later chain ha hb
  · obtain ⟨x, hx, rfl | less⟩ := h kind r hr
    · exact Option.some.inj (hx.symm.trans hr')
    · obtain rfl : x = r' := Option.some.inj (hx.symm.trans hr')
      omega
  · obtain ⟨x, hx, rfl | less⟩ := h kind r' hr'
    · exact Option.some.inj (hr.symm.trans hx)
    · obtain rfl : x = r := Option.some.inj (hx.symm.trans hr)
      omega

theorem number_of_first (chain : (init.accepted :: commits).IsChain Succeeds)
    {before after : List Releases} {c : Releases} (split : commits = before ++ c :: after)
    {kind : ResourceKind} (vacant : ∀ b ∈ before, b.get? kind = none) {r : Release}
    (hr : c.get? kind = some r) : r.number = 1 := by
  rw [split, ← List.cons_append, List.isChain_append] at chain
  obtain ⟨b, last⟩ : ∃ b, (init.accepted :: before).getLast? = some b :=
    ⟨_, List.getLast?_eq_some_getLast (List.cons_ne_nil _ _)⟩
  have none : b.get? kind = none := by
    obtain rfl | hb := List.mem_cons.mp (List.mem_of_getLast? last)
    · rfl
    · exact vacant b hb
  obtain ⟨made, revised⟩ := (chain.2.2 b last c rfl).revised kind
  rw [hr, none] at revised
  exact number_of_revise_none revised.symm

/-! ## Snapshots -/

theorem get?_snapshot_eq_some {releases : Releases} {kind : ResourceKind} {k : KindResources} :
    (snapshot releases).get? kind = some k ↔
      ∃ r, releases.get? kind = some r ∧ k = ⟨toString r.number, r.resources⟩ := by
  rw [get?_snapshot, Option.map_eq_some_iff]
  simp only [eq_comm]

/-- A kind keeps its version with its resources, and gets the next one with others. -/
theorem Succeeds.next_version {a b : Releases} (h : Succeeds a b) {kind : ResourceKind}
    {k : KindResources} (hk : (snapshot a).get? kind = some k) :
    ∃ k', (snapshot b).get? kind = some k' ∧
      (k'.resources = k.resources → k'.version = k.version) ∧
      (k'.resources ≠ k.resources →
        ∃ n : Nat, k.version = toString n ∧ k'.version = toString (n + 1)) := by
  obtain ⟨r, hr, rfl⟩ := get?_snapshot_eq_some.mp hk
  obtain ⟨made, revised⟩ := h.revised kind
  rw [hr] at revised
  obtain same | ⟨resources, differ, changed⟩ := revise_some r made
  · refine ⟨_, get?_snapshot_eq_some.mpr ⟨r, revised.trans same, rfl⟩, fun _ => rfl, ?_⟩
    intro differ
    exact absurd rfl differ
  · refine ⟨_, get?_snapshot_eq_some.mpr ⟨_, revised.trans changed, rfl⟩, ?_, ?_⟩
    · intro same
      exact absurd same.symm differ
    · intro _
      exact ⟨r.number, rfl, rfl⟩

theorem Later.version_le {a b : Releases} (h : Later a b) {kind : ResourceKind}
    {k : KindResources} (hk : (snapshot a).get? kind = some k) :
    ∃ k', (snapshot b).get? kind = some k' ∧
      ∃ m n : Nat, m ≤ n ∧ k.version = toString m ∧ k'.version = toString n := by
  obtain ⟨r, hr, rfl⟩ := get?_snapshot_eq_some.mp hk
  obtain ⟨r', hr', order⟩ := h kind r hr
  refine ⟨_, get?_snapshot_eq_some.mpr ⟨r', hr', rfl⟩, r.number, r'.number, ?_, rfl, rfl⟩
  obtain rfl | less := order <;> omega

/-- Versions are written numbers, and different numbers are written differently. -/
theorem resources_of_version_eq (chain : commits.IsChain Succeeds) {a b : Releases}
    (ha : a ∈ commits) (hb : b ∈ commits) {kind : ResourceKind} {k k' : KindResources}
    (hk : (snapshot a).get? kind = some k) (hk' : (snapshot b).get? kind = some k')
    (same : k.version = k'.version) : k.resources = k'.resources := by
  obtain ⟨r, hr, rfl⟩ := get?_snapshot_eq_some.mp hk
  obtain ⟨r', hr', rfl⟩ := get?_snapshot_eq_some.mp hk'
  rw [eq_of_number_eq chain ha hb hr hr' (Nat.repr_inj.mp same)]

theorem version_of_first (chain : (init.accepted :: commits).IsChain Succeeds)
    {before after : List Snapshot} {s : Snapshot}
    (split : commits.map snapshot = before ++ s :: after) {kind : ResourceKind}
    (vacant : ∀ s' ∈ before, s'.get? kind = none) {k : KindResources}
    (hk : s.get? kind = some k) : k.version = "1" := by
  obtain ⟨bs, rest, rfl, rfl, hrest⟩ := List.map_eq_append_iff.mp split
  obtain ⟨c, as, rfl, rfl, rfl⟩ := List.map_eq_cons_iff.mp hrest
  obtain ⟨r, hr, rfl⟩ := get?_snapshot_eq_some.mp hk
  have vacant' : ∀ b ∈ bs, b.get? kind = none := by
    intro b hb
    simpa [get?_snapshot] using vacant _ (List.mem_map_of_mem hb)
  simp only [number_of_first chain rfl vacant' hr]
  rfl

theorem versionLaw_of_isChain (chain : (init.accepted :: commits).IsChain Succeeds) :
    VersionLaw (commits.map snapshot) := by
  have row : commits.IsChain Succeeds := chain.tail
  constructor
  · intro before s after kind k split vacant hk
    exact version_of_first chain split vacant hk
  · rw [List.isChain_map]
    exact row.imp fun _ _ h _ _ hk => h.next_version hk
  · rw [List.isChain_map]
    refine row.imp fun a b h => ?_
    obtain ⟨kind, differs⟩ := h.differs
    exact ⟨kind, by simpa only [resources_get?_snapshot] using differs⟩
  · intro s hs s' hs' kind k k' hk hk' same
    obtain ⟨a, ha, rfl⟩ := List.mem_map.mp hs
    obtain ⟨b, hb, rfl⟩ := List.mem_map.mp hs'
    exact resources_of_version_eq row ha hb hk hk' same
  · rw [List.pairwise_map]
    refine (pairwise_later row).imp fun h kind k hk => ?_
    exact h.version_le hk

/-- In every run, whatever changes between the ticks and whatever the sink answers, the versions
of the snapshots that the sink takes tell which resources changed. -/
theorem versionLaw_taken (ticks : List Tick) : VersionLaw (init.taken ticks) := by
  obtain ⟨commits, taken, chain⟩ := init.exists_commits ticks
  rw [taken]
  exact versionLaw_of_isChain chain

/-- A snapshot is refused and offered again. Later a certificate is found, and then another. -/
theorem versionLaw_taken_refused :
    let inputs := fun certificates => MeshInputs.mk .standard [] certificates []
    let ticks : List Tick :=
      [⟨inputs none, .error (.rejected "full")⟩, ⟨inputs none, .ok ()⟩,
        ⟨inputs (some [⟨["a.example"], "a.crt", "a.key"⟩]), .ok ()⟩, ⟨inputs none, .ok ()⟩,
        ⟨inputs (some [⟨["b.example"], "b.crt", "b.key"⟩]), .ok ()⟩]
    let versions := fun kind =>
      (init.taken ticks).map fun s => (s.get? kind).map (·.version)
    versions .gateway = [none, some "1", some "2"] ∧
      versions .sidecar = [some "1", some "1", some "1"] ∧ VersionLaw (init.taken ticks) := by
  intro inputs ticks versions
  exact ⟨by decide +kernel, by decide +kernel, versionLaw_taken ticks⟩

end Publisher

end MeshControl
