import Mathlib
import MeshControl.Proofs.Mesh.Entries
import MeshControl.Proofs.Mesh.Services

/-!
# Records in another order

Destination rules and sidecars do not show in which order the records are listed. Virtual services
and service entries show it by what the first record decides, and by that alone. So their order
does not matter where records agree, and does where they do not.

## Main statements

* `RouteRecord.virtualServices_eq_iff`, `RouteRecord.serviceEntries_eq_iff` — when records in
  another order give the same resources.
* `RouteRecord.resources_perm` — what the order of the records does to each kind.
-/

namespace MeshControl

open Table (having)

namespace RouteRecord

variable {records records' : List RouteRecord} {host : MeshHost} {path : Option String}
  {id : ProcessId}

/-! ## Records that agree -/

/-- Where all values are the same, any of them is the first. -/
theorem findSome?_eq_some_iff_of_agree {α β : Type} {f : α → Option β} {l : List α}
    (agree : ∀ a ∈ l, ∀ b ∈ l, (f a).isSome → (f b).isSome → f a = f b) {v : β} :
    l.findSome? f = some v ↔ ∃ a ∈ l, f a = some v := by
  refine ⟨List.exists_of_findSome?_eq_some, fun ⟨a, ha, value⟩ => ?_⟩
  have given : (f a).isSome := Option.isSome_of_eq_some value
  obtain ⟨w, found⟩ := Option.isSome_iff_exists.mp (List.findSome?_isSome_iff.mpr ⟨a, ha, given⟩)
  obtain ⟨b, hb, first⟩ := List.exists_of_findSome?_eq_some found
  rw [found, ← first, ← value]
  exact agree b hb a ha (Option.isSome_of_eq_some first) given

theorem findSome?_eq_of_perm {α β : Type} {f : α → Option β} {l l' : List α} (same : l.Perm l')
    (agree : ∀ a ∈ l, ∀ b ∈ l, (f a).isSome → (f b).isSome → f a = f b) :
    l.findSome? f = l'.findSome? f := by
  have agree' : ∀ a ∈ l', ∀ b ∈ l', (f a).isSome → (f b).isSome → f a = f b :=
    fun a ha b hb => agree a (same.mem_iff.mpr ha) b (same.mem_iff.mpr hb)
  ext v
  simp only [findSome?_eq_some_iff_of_agree agree, findSome?_eq_some_iff_of_agree agree',
    same.mem_iff]

theorem findSome?_sharing_eq_of_perm {β : Type} {f : RouteRecord → Option β}
    (same : records.Perm records')
    (agree : ∀ r ∈ records, ∀ r' ∈ records, r.meshHost = r'.meshHost → r.path = r'.path →
      r.processId = r'.processId → (f r).isSome → (f r').isSome → f r = f r') :
    (sharing host path id records).findSome? f = (sharing host path id records').findSome? f := by
  refine findSome?_eq_of_perm (same.filter _) fun r hr r' hr' => ?_
  obtain ⟨member, rfl, rfl, rfl⟩ := mem_sharing.mp hr
  obtain ⟨member', host, path, process⟩ := mem_sharing.mp hr'
  exact agree r member r' member' host.symm path.symm process.symm

theorem Uncontested.firstWeight?_eq (agree : Uncontested records) (same : records.Perm records') :
    firstWeight? host path id records = firstWeight? host path id records' := by
  have first : ∀ l : List RouteRecord, l.head?.map (·.weight) = l.findSome? (some ·.weight) := by
    intro l
    cases l <;> rfl
  rw [firstWeight?, firstWeight?, first, first]
  refine findSome?_sharing_eq_of_perm same fun r hr r' hr' host path process _ _ => ?_
  exact congrArg some (agree.weight r hr r' hr' host path process)

theorem Uncontested.firstLivePort?_eq (agree : Uncontested records)
    (same : records.Perm records') :
    firstLivePort? host path id records = firstLivePort? host path id records' := by
  rw [← findSome?_targetPort?, ← findSome?_targetPort?]
  refine findSome?_sharing_eq_of_perm same fun r hr r' hr' host path process live live' => ?_
  rw [isSome_targetPort?] at live live'
  exact agree.port r hr r' hr' host path process live live'

theorem Uncontested.firstVip?_eq (agree : Uncontested records) (same : records.Perm records') :
    firstVip? host records = firstVip? host records' := by
  rw [← address?_live_eq_firstVip?, ← address?_live_eq_firstVip?]
  refine findSome?_eq_of_perm ((same.filter _).filter _) fun r hr r' hr' vip vip' => ?_
  obtain ⟨member, rfl⟩ := mem_ofHost.mp hr
  obtain ⟨member', side⟩ := mem_ofHost.mp hr'
  obtain ⟨hr, live⟩ := List.mem_filter.mp member
  obtain ⟨hr', live'⟩ := List.mem_filter.mp member'
  have inside' : r'.internal = r.internal := congrArg MeshHost.internal side
  rw [inside'] at vip' ⊢
  by_cases inside : r.internal
  · simp only [inside, if_true] at vip vip' ⊢
    exact agree.vip r hr r' hr' side.symm inside live live' vip vip'
  · simp [inside]

end RouteRecord

/-! ## Virtual services -/

namespace VirtualService

variable {ingress : Ingress} {host : MeshHost} {records records' : List RouteRecord}

theorem ofRecords_eq_of_perm (same : records.Perm records')
    (weights : ∀ path id, RouteRecord.firstWeight? host path id records =
      RouteRecord.firstWeight? host path id records')
    (ports : ∀ path id, RouteRecord.firstLivePort? host path id records =
      RouteRecord.firstLivePort? host path id records') :
    ofRecords ingress host (RouteRecord.ofHost host records) =
      ofRecords ingress host (RouteRecord.ofHost host records') := by
  have own : (RouteRecord.ofHost host records).Perm (RouteRecord.ofHost host records') :=
    same.filter _
  have rules : ∀ path, rule host path (having (·.pathKey) path (RouteRecord.ofHost host records)) =
      rule host path (having (·.pathKey) path (RouteRecord.ofHost host records')) := by
    rintro ⟨path⟩
    -- What has a path is a filter of the list, so it is in another order only.
    have onPath := own.filter fun r => compare (PathKey.mk path) r.pathKey == .eq
    have destinations := Table.entries_group_congr_of_perm (f := (·.processId))
      (F := destination host) onPath fun id => by
        rw [← having, ← having, RouteRecord.having_ofHost, RouteRecord.having_ofHost,
          destination_sharing, destination_sharing, weights, ports]
    rw [rule, having, destinations, rule, having]
  rw [ofRecords, Table.entries_group_congr_of_perm (F := rule host) own rules, ofRecords]

/-- What serves two lists of records tells what both of them decide. -/
theorem Serves.decide_alike {s : VirtualService} (serves : s.Serves ingress host records)
    (serves' : s.Serves ingress host records') {r : RouteRecord} (hr : r ∈ records)
    (own : r.meshHost = host) :
    RouteRecord.firstWeight? host r.path r.processId records =
        RouteRecord.firstWeight? host r.path r.processId records' ∧
      RouteRecord.firstLivePort? host r.path r.processId records =
        RouteRecord.firstLivePort? host r.path r.processId records' := by
  obtain ⟨x, ⟨hx, asks⟩, -⟩ := serves.path r hr own
  obtain ⟨path, -, spreads⟩ := serves.rule x hx
  obtain ⟨path', -, spreads'⟩ := serves'.rule x hx
  obtain rfl : path = r.path := spreads.isFor.unique asks
  obtain rfl : path' = r.path := spreads'.isFor.unique asks
  have listed := (spreads.process r.processId).mpr ⟨r, hr, own, rfl, rfl⟩
  obtain ⟨d, hd, process⟩ := List.mem_map.mp listed
  obtain ⟨-, weight, port⟩ := spreads.destination d hd
  obtain ⟨-, weight', port'⟩ := spreads'.destination d hd
  rw [← process]
  exact ⟨weight.trans weight'.symm, port.trans port'.symm⟩

end VirtualService

namespace RouteRecord

variable {records records' : List RouteRecord}

theorem exists_serves_of_eq {ingress : Ingress}
    (equal : virtualServices ingress records = virtualServices ingress records')
    {r : RouteRecord} (hr : r ∈ records) : ∃ s : VirtualService,
      s.Serves ingress r.meshHost records ∧ s.Serves ingress r.meshHost records' := by
  have some : ofHost r.meshHost records ≠ [] := ofHost_ne_nil_iff.mpr ⟨r, hr, rfl⟩
  have served : r.meshHost.virtualService (VirtualService.ofRecords ingress r.meshHost
      (ofHost r.meshHost records)) ∈ virtualServices ingress records' :=
    equal ▸ mem_virtualServices.mpr ⟨some, rfl⟩
  obtain ⟨-, again⟩ := mem_virtualServices.mp served
  exact ⟨_, VirtualService.serves_ofRecords, again ▸ VirtualService.serves_ofRecords⟩

/-- Records in another order give the same virtual services if and only if they decide the same
weight and the same port for every destination. -/
theorem virtualServices_eq_iff (ingress : Ingress) (same : records.Perm records') :
    virtualServices ingress records = virtualServices ingress records' ↔
      ∀ host path id, firstWeight? host path id records = firstWeight? host path id records' ∧
        firstLivePort? host path id records = firstLivePort? host path id records' := by
  constructor
  · intro equal host path id
    have sharers : (sharing host path id records).Perm (sharing host path id records') :=
      same.filter _
    by_cases unshared : sharing host path id records = []
    · have unshared' : sharing host path id records' = [] := (unshared ▸ sharers).nil_eq.symm
      simp only [firstWeight?, firstLivePort?, unshared, unshared', and_self]
    · obtain ⟨r, hr⟩ := List.exists_mem_of_ne_nil _ unshared
      obtain ⟨member, rfl, rfl, rfl⟩ := mem_sharing.mp hr
      obtain ⟨s, serves, serves'⟩ := exists_serves_of_eq equal member
      exact serves.decide_alike serves' member rfl
  · intro alike
    rw [virtualServices_eq_perHost, virtualServices_eq_perHost]
    refine perHost_congr (fun host => ?_) fun host _ _ => ?_
    · exact SameMembers.eq_nil_iff fun _ => (same.filter _).mem_iff
    · exact congrArg Resource.Body.virtualService (VirtualService.ofRecords_eq_of_perm same
        (fun path id => (alike host path id).1) fun path id => (alike host path id).2)

/-! ## Service entries -/

/-- Records in another order give the same service entries if and only if they decide the same
virtual address for every host. -/
theorem serviceEntries_eq_iff (same : records.Perm records') :
    serviceEntries records = serviceEntries records' ↔
      ∀ host, firstVip? host records = firstVip? host records' := by
  constructor
  · intro equal host
    have living : (live host records).Perm (live host records') := (same.filter _).filter _
    by_cases idle : live host records = []
    · have idle' : live host records' = [] := (idle ▸ living).nil_eq.symm
      rw [← address?_live_eq_firstVip?, ← address?_live_eq_firstVip?, idle, idle']
    · have entered : host.serviceEntry (ServiceEntry.ofRecords host (live host records)) ∈
          serviceEntries records' := equal ▸ mem_serviceEntries.mpr ⟨idle, rfl⟩
      obtain ⟨-, again⟩ := mem_serviceEntries.mp entered
      have exposes' : (ServiceEntry.ofRecords host (live host records)).Exposes host records' :=
        again ▸ ServiceEntry.exposes_ofRecords
      have addresses := ServiceEntry.exposes_ofRecords.addresses.symm.trans exposes'.addresses
      simpa using congrArg List.head? addresses
  · intro alike
    refine serviceEntries_congr_address? (fun _ => (same.flatMap_right _).mem_iff) fun host => ?_
    rw [address?_live_eq_firstVip?, address?_live_eq_firstVip?, alike]

/-! ## All kinds -/

/-- Destination rules and sidecars do not depend on the order of the records. Virtual services and
service entries depend on it by what is decided, which it cannot be where records agree. -/
theorem resources_perm (ingress : Ingress) {records records' : List RouteRecord}
    (same : records.Perm records') (edges : List PolicyEdge) :
    destinationRules records = destinationRules records' ∧
    PolicyEdge.sidecars records edges = PolicyEdge.sidecars records' edges ∧
    (virtualServices ingress records = virtualServices ingress records' ↔
      ∀ host path id, firstWeight? host path id records = firstWeight? host path id records' ∧
        firstLivePort? host path id records = firstLivePort? host path id records') ∧
    (serviceEntries records = serviceEntries records' ↔
      ∀ host, firstVip? host records = firstVip? host records') ∧
    (Uncontested records → virtualServices ingress records = virtualServices ingress records' ∧
      serviceEntries records = serviceEntries records') := by
  refine ⟨destinationRules_congr fun _ => (same.map _).mem_iff,
    PolicyEdge.sidecars_congr (fun _ => (same.filterMap _).mem_iff) fun _ => Iff.rfl,
    virtualServices_eq_iff ingress same, serviceEntries_eq_iff same, fun agree => ⟨?_, ?_⟩⟩
  · exact (virtualServices_eq_iff ingress same).mpr fun _ _ _ =>
      ⟨agree.firstWeight?_eq same, agree.firstLivePort?_eq same⟩
  · exact (serviceEntries_eq_iff same).mpr fun _ => agree.firstVip?_eq same

/-- A process with two schedulers, whose records agree. -/
theorem resources_perm_agreeing :
    let web (address : String) : BackendSet := .ofList [⟨address, 9001, 8080⟩]
    let records : List RouteRecord :=
      [⟨"db.internal", none, "p-db", "s-1", web "10.0.0.1", 50, true, some "127.1.1.3"⟩,
       ⟨"db.internal", none, "p-db", "s-2", ∅, 50, true, some "127.1.1.3"⟩,
       ⟨"db.internal", some "/ro", "p-db", "s-2", web "10.0.0.2", 70, true, none⟩,
       ⟨"db.internal", none, "p-db", "s-3", web "10.0.0.3", 90, false, some "127.2.2.3"⟩]
    records.Perm records.reverse ∧ Uncontested records ∧
      virtualServices .standard records = virtualServices .standard records.reverse ∧
      serviceEntries records = serviceEntries records.reverse := by
  intro web records
  have same : records.Perm records.reverse := (List.reverse_perm records).symm
  have agree : Uncontested records := ⟨by decide, by decide, by decide⟩
  obtain ⟨-, -, -, -, equal⟩ := resources_perm .standard same []
  exact ⟨same, agree, equal agree⟩

/-- Two records of a process that disagree on its weight and on the virtual address. Each order
gives resources of its own. -/
theorem resources_not_perm :
    let web : BackendSet := .ofList [⟨"10.0.0.1", 9001, 8080⟩]
    let low : RouteRecord :=
      ⟨"db.internal", none, "p-db", "s-1", web, 50, true, some "127.1.1.3"⟩
    let high : RouteRecord :=
      ⟨"db.internal", none, "p-db", "s-1", web, 100, true, some "127.2.2.3"⟩
    [low, high].Perm [high, low] ∧
      virtualServices .standard [low, high] ≠ virtualServices .standard [high, low] ∧
      serviceEntries [low, high] ≠ serviceEntries [high, low] := by
  intro web low high
  have same : [low, high].Perm [high, low] := List.Perm.swap high low []
  refine ⟨same, fun equal => ?_, fun equal => ?_⟩
  · have decided := (virtualServices_eq_iff .standard same).mp equal
    exact absurd (decided ⟨"db.internal", true⟩ none "p-db").1 (by decide)
  · have decided := (serviceEntries_eq_iff same).mp equal
    exact absurd (decided ⟨"db.internal", true⟩) (by decide)

end RouteRecord

end MeshControl
