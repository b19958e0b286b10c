import Mathlib
import MeshControl.Proofs.Collector.Worlds
import MeshControl.Proofs.Publisher.Tick

/-!
# Versions that stay

A kind gets a new version only when something that it reads has changed. So new weights are a
matter of virtual services alone, and backends that come and go behind the same ports are a matter
of service entries alone.

## Main statements

* `Publisher.get?_accepted_after` — a kind that is made alike keeps its release.
* `Publisher.version?_after_eq_iff` — a kind keeps its version exactly if it is made alike.
* `Publisher.version_stays` — a kind that reads the same keeps its version.
-/

namespace MeshControl

namespace Publisher

theorem revise_revise (before : Option Release) (made : Option (List Resource)) :
    revise (revise before made) made = revise before made := by
  cases made with
  | none => rfl
  | some resources =>
    obtain ⟨number, released⟩ := revise_made before resources
    rw [released, revise_eq_self_iff]
    rintro _ ⟨⟩
    rfl

/-- A kind that two ticks make alike, or cannot make, keeps the release of the first. -/
theorem get?_accepted_after {p : Publisher} {s t : Tick} (taken : ¬ (p.outcome s).refused)
    {kind : ResourceKind} (same : s.inputs.resources? kind = t.inputs.resources? kind) :
    ((p.after s).after t).accepted.get? kind = (p.after s).accepted.get? kind := by
  by_cases refused : ((p.after s).outcome t).refused
  · rw [after_of_refused _ t refused]
  · rw [accepted_after _ t refused, get?_next, accepted_after p s taken, get?_next, ← same,
      revise_revise]

/-- After a tick that the sink did not refuse, a kind keeps its version in the next tick if and only
if the sink refuses that one or the kind is made of the same resources. -/
theorem version?_after_eq_iff {p : Publisher} {s t : Tick} (taken : ¬ (p.outcome s).refused)
    {kind : ResourceKind} {resources resources' : List Resource}
    (made : s.inputs.resources? kind = some resources)
    (made' : t.inputs.resources? kind = some resources') :
    ((p.after s).after t).version? kind = (p.after s).version? kind ↔
      ((p.after s).outcome t).refused ∨ resources = resources' := by
  by_cases refused : ((p.after s).outcome t).refused
  · rw [after_of_refused _ t refused]
    exact iff_of_true rfl (.inl refused)
  · obtain ⟨number, released⟩ := revise_made (p.accepted.get? kind) resources
    have before : (p.after s).accepted.get? kind = some ⟨number, resources⟩ := by
      rw [accepted_after p s taken, get?_next, made, released]
    rw [or_iff_right refused, version?, version?, accepted_after _ t refused, get?_next, before,
      made', revise]
    split_ifs with same
    · exact iff_of_true rfl same
    · refine iff_of_false (fun numbers => ?_) same
      have next : number + 1 = number := Nat.repr_inj.mp (Option.some.inj numbers)
      omega

theorem not_refused {p : Publisher} {t : Tick} (ok : t.answer = .ok ()) :
    ¬ (p.outcome t).refused := by
  obtain ⟨-, -, same⟩ | ⟨-, -, -, published⟩ | ⟨-, why, error, -⟩ := p.tick_cases t
  · rw [same]
    nofun
  · rw [published]
    nofun
  · rw [ok] at error
    contradiction

/-- After a tick that the sink did not refuse, a tick in another world leaves the version of every
kind that reads the same there. New weights of stored mappings leave all kinds but virtual services,
and new backends that keep the first port of every record leave all kinds but service entries. -/
theorem version_stays (p : Publisher) (ingress : Ingress) (v w : World)
    (answer answer' : SinkAnswer) (taken : ¬ (p.outcome ⟨v.inputs ingress, answer⟩).refused) :
    let q := p.after ⟨v.inputs ingress, answer⟩
    let q' := q.after ⟨w.inputs ingress, answer'⟩
    (∀ kind, (v.inputs ingress).Agree (w.inputs ingress) kind →
      q'.version? kind = q.version? kind) ∧
    (v.Reweighted w → ∀ kind, kind ≠ .virtualService → q'.version? kind = q.version? kind) ∧
    (v.Churned w → ∀ kind, kind ≠ .serviceEntry → q'.version? kind = q.version? kind) := by
  intro q q'
  have stays : ∀ kind, (v.inputs ingress).resources? kind = (w.inputs ingress).resources? kind →
      q'.version? kind = q.version? kind := by
    intro kind same
    rw [version?, version?, get?_accepted_after taken same]
  exact ⟨fun kind agree => stays kind (World.resources?_congr agree),
    fun h kind other => stays kind (h.resources?_eq ingress other),
    fun h kind other => stays kind (h.resources?_eq ingress other)⟩

/-- A mapping gets a new weight, and a second backend appears behind the port of the first. -/
theorem version_stays_shop :
    let shop (backends : List Backend) : World :=
      ⟨⟨.ofList [⟨"r-1", "shop.example", none, false, none⟩],
          .ofList [⟨"r-1", "p-new", 1⟩, ⟨"r-1", "p-web", 1⟩], .ofList [⟨"p-web", .ofList ["s-1"]⟩]⟩,
        ⟨fun _ => .ofList backends, fun _ => ∅⟩, some [], []⟩
    let first : World := shop [⟨"10.0.0.1", 9001, 8080⟩]
    let grown : World := shop [⟨"10.0.0.1", 9001, 8080⟩, ⟨"10.0.0.2", 9002, 8080⟩]
    let heavier : World :=
      { first with desired.mappings := first.desired.mappings.map ⟨"r-1", "p-web", 3⟩ }
    let p := init.after ⟨first.inputs .standard, .ok ()⟩
    (p.after ⟨heavier.inputs .standard, .ok ()⟩).version? .gateway = p.version? .gateway ∧
      (p.after ⟨heavier.inputs .standard, .ok ()⟩).version? .serviceEntry =
        p.version? .serviceEntry ∧
      (p.after ⟨grown.inputs .standard, .error (.rejected "full")⟩).version? .virtualService =
        p.version? .virtualService := by
  intro shop first grown heavier p
  have taken : ¬ (init.outcome ⟨first.inputs .standard, .ok ()⟩).refused := not_refused rfl
  have certificates : (first.inputs .standard).Agree (heavier.inputs .standard) .gateway :=
    ⟨[], rfl, rfl⟩
  have reweighted : first.Reweighted heavier := World.reweighted_map (by decide)
  have churned : first.Churned grown := by
    refine ⟨rfl, fun j _ => ?_, rfl, rfl⟩
    simp only [RouteRecord.firstPort?, DesiredState.backends_record, LiveBackends.ofSide]
    cases j.route.isInternal with
    | false => cbv
    | true => rfl
  obtain ⟨agree, weights, -⟩ :=
    version_stays init .standard first heavier _ (.ok ()) taken
  obtain ⟨-, -, ports⟩ :=
    version_stays init .standard first grown _ (.error (.rejected "full")) taken
  exact ⟨agree _ certificates, weights reweighted _ (by decide), ports churned _ (by decide)⟩

end Publisher

end MeshControl
