import MeshControl.Certificate.Basic
import MeshControl.Event
import MeshControl.Policy
import MeshControl.Proofs.Json.Codec

/-!
# What is stated and reported, read back

The written forms of routes, mappings and associations, of backends and instances, of notices, and
of certificates and policy edges are lawful. A notice is read in two steps: its members have to be
whole and may not nest too deep before its type is looked at, which what was written meets.

## Main statements

* `Route.lawful`, `RouteMapping.lawful`, `Association.lawful`, `Certificate.lawful`,
  `PolicyEdge.lawful` — what is stated.
* `Backend.lawful`, `Instance.lawful`, `InstanceEvent.lawful` — what is reported.
-/

namespace MeshControl

open Json

/-! ## What is stated -/

theorem Route.lawful : Lawful Route.toJson Route.ofJson :=
  ⟨Route.ofJson_toJson, Route.plain_toJson, nofun⟩

theorem RouteMapping.lawful : Lawful RouteMapping.toJson RouteMapping.ofJson :=
  ⟨RouteMapping.ofJson_toJson, RouteMapping.plain_toJson, nofun⟩

theorem Association.lawful : Lawful Association.toJson Association.ofJson :=
  ⟨Association.ofJson_toJson, Association.plain_toJson, nofun⟩

theorem Certificate.lawful : Lawful Certificate.toJson Certificate.ofJson where
  back := by
    rintro ⟨hosts, certPath, keyPath⟩
    refine record_object (by decide) rfl fun names => ?_
    refine Checked.seq_eq_ok (Checked.seq_eq_ok (Checked.map_eq_ok _ ?_) ?_) ?_
    · exact lawful_string.asList.required names (by simp)
    · exact lawful_string.required names (by simp)
    · exact lawful_string.required names (by simp)
  plain c := .object (by simp [lawful_string.plain, lawful_string.asList.plain])
  notNull := nofun

theorem PolicyEdge.lawful : Lawful PolicyEdge.toJson PolicyEdge.ofJson where
  back := by
    rintro ⟨source, destination⟩
    refine record_object (by decide) rfl fun names => ?_
    refine Checked.seq_eq_ok (Checked.map_eq_ok _ ?_) ?_
    · exact lawful_string.required names (by simp)
    · exact lawful_string.required names (by simp)
  plain e := .object (by simp [lawful_string.plain])
  notNull := nofun

/-! ## What is reported -/

theorem Backend.lawful : Lawful Backend.toJson Backend.ofJson where
  back := by
    rintro ⟨address, port, containerPort⟩
    refine record_object (by decide) rfl fun names => ?_
    refine Checked.seq_eq_ok (Checked.seq_eq_ok (Checked.map_eq_ok _ ?_) ?_) ?_
    · exact lawful_string.required names (by simp)
    · exact lawful_port.required names (by simp)
    · exact lawful_port.required names (by simp)
  plain b := .object (by simp [lawful_string.plain, lawful_port.plain])
  notNull := nofun

theorem PortMapping.lawful : Lawful PortMapping.toJson PortMapping.ofJson where
  back := by
    rintro ⟨containerPort, hostPort⟩
    refine record_object (by decide) rfl fun names => ?_
    refine Checked.seq_eq_ok (Checked.map_eq_ok _ ?_) ?_
    · exact lawful_port.required names (by simp)
    · exact lawful_port.required names (by simp)
  plain p := .object (by simp [lawful_port.plain])
  notNull := nofun

namespace InstanceState

theorem lawful : Lawful (fun s => .string (word s)) ofJson :=
  lawful_asWordOf fun s => by cases s <;> decide

theorem lawful_ofNotice : Lawful (fun s => .string (word s)) ofNotice :=
  ⟨lawful.back, lawful.plain, nofun⟩

end InstanceState

namespace Instance

theorem lawful_decoder {state : Decoder InstanceState}
    (h : Lawful (fun s => .string (InstanceState.word s)) state) :
    Lawful toJson (decoder state) where
  back := by
    rintro ⟨processId, index, s, evacuating, address, instanceAddress, ports⟩
    refine record_present (by decide) rfl fun names => ?_
    refine Checked.seq_eq_ok (Checked.seq_eq_ok (Checked.seq_eq_ok (Checked.seq_eq_ok
      (Checked.seq_eq_ok (Checked.seq_eq_ok (Checked.map_eq_ok _ ?_) ?_) ?_) ?_) ?_) ?_) ?_
    · exact lawful_string.required_present names (by simp)
    · exact lawful_word.withDefault_present names (by simp)
    · exact h.required_present names (by simp)
    · exact lawful_bool.withDefault_present names (by simp)
    · exact lawful_string.required_present names (by simp)
    · exact lawful_string.optional_present names (by simp)
    · exact PortMapping.lawful.asList.withDefault_present names (by simp)
  plain i := plain_present (by simp [lawful_string.plain, lawful_word.plain, lawful_bool.plain,
    PortMapping.lawful.asList.plain])
  notNull := nofun

theorem lawful : Lawful toJson ofJson := lawful_decoder InstanceState.lawful

theorem lawful_ofNotice : Lawful toJson ofNotice := lawful_decoder InstanceState.lawful_ofNotice

end Instance

/-! ## Notices -/

namespace Json

theorem wholeItems_iff {items : List Json} :
    isWhole.wholeItems items ↔ ∀ v ∈ items, v.isWhole := by
  induction items with
  | nil => simp [isWhole.wholeItems]
  | cons v items ih => simp [isWhole.wholeItems, ih]

theorem wholeMembers_iff {members : List (String × Json)} :
    isWhole.wholeMembers members ↔ ∀ m ∈ members, m.2.isWhole := by
  induction members with
  | nil => simp [isWhole.wholeMembers]
  | cons m members ih => simp [isWhole.wholeMembers, ih]

theorem Plain.isWhole {v : Json} (h : v.Plain) : v.isWhole := by
  induction h with
  | null | bool | nat | string => rfl
  | array _ ih => rwa [Json.isWhole, wholeItems_iff]
  | object _ ih => rwa [Json.isWhole, wholeMembers_iff]

theorem fits_array {d : Nat} {items : List Json} :
    (array items).fits (d + 1) ↔ ∀ v ∈ items, v.fits d := by
  rw [fits]
  induction items with
  | nil => simp [fits.fitItems]
  | cons v items ih => simp [fits.fitItems, ih]

theorem fits_object {d : Nat} {members : List (String × Json)} :
    (object members).fits (d + 1) ↔ ∀ m ∈ members, m.2.fits d := by
  rw [fits]
  induction members with
  | nil => simp [fits.fitMembers]
  | cons m members ih => simp [fits.fitMembers, ih]

end Json

theorem PortMapping.fits_toJson (p : PortMapping) (d : Nat) : p.toJson.fits (d + 1) := by
  rw [toJson, fits_object]
  simp [Json.ofNat, Json.fits]

theorem Instance.fits_toJson (i : Instance) (d : Nat) : i.toJson.fits (d + 3) := by
  have ports : (array (i.ports.map PortMapping.toJson)).fits (d + 2) :=
    fits_array.mpr (List.forall_mem_map.mpr fun p _ => p.fits_toJson d)
  refine fits_object.mpr fun m hm => ?_
  have there := mem_present.mp hm
  simp only [List.mem_cons, Prod.mk.injEq, List.not_mem_nil, or_false, Option.some.injEq,
    eq_comm (a := some m.2), Option.map_eq_some_iff] at there
  rcases there with ⟨-, h⟩ | ⟨-, h⟩ | ⟨-, h⟩ | ⟨-, h⟩ | ⟨-, h⟩ | ⟨-, _, -, h⟩ | ⟨-, h⟩
  all_goals rw [← h]
  all_goals first | exact ports | rfl

namespace InstanceEvent

theorem fits_toJson (e : InstanceEvent) : e.toJson.fits maxDepth := by
  cases e <;> exact fits_object.mpr (by simp [Json.fits, Instance.fits_toJson _ 123])

/-- The members beside the type are read as the notice of that type, also as an array. -/
theorem bodyOfJson_toJson (e : InstanceEvent) : ∃ type members,
    e.toJson = .object (("type", .string type) :: members) ∧ (∀ m ∈ members, m.1 ≠ "type") ∧
      bodyOfJson type (.object members) = .ok e ∧
      bodyOfJson type (.array (members.map (·.2))) = bodyOfJson type (.object members) := by
  cases e with
  | created i =>
    refine ⟨"created", _, rfl, by simp, record_object (by decide) rfl fun names => ?_,
      record_array rfl⟩
    exact Checked.map_eq_ok _ (Instance.lawful_ofNotice.required names (by simp))
  | changed before after =>
    refine ⟨"changed", _, rfl, by simp, record_object (by decide) rfl fun names => ?_,
      record_array rfl⟩
    refine Checked.seq_eq_ok (Checked.map_eq_ok _ ?_) ?_
    · exact Instance.lawful_ofNotice.required names (by simp)
    · exact Instance.lawful_ofNotice.required names (by simp)
  | removed i =>
    refine ⟨"removed", _, rfl, by simp, record_object (by decide) rfl fun names => ?_,
      record_array rfl⟩
    exact Checked.map_eq_ok _ (Instance.lawful_ofNotice.required names (by simp))

theorem plain_toJson (e : InstanceEvent) : e.toJson.Plain := by
  cases e <;> exact .object (by simp [lawful_string.plain, Instance.lawful.plain])

theorem lawful : Lawful toJson ofJson where
  back e := by
    obtain ⟨type, members, written, others, body, -⟩ := e.bodyOfJson_toJson
    have fits := e.fits_toJson
    have whole := e.plain_toJson.isWhole
    rw [written] at fits whole ⊢
    have typed : (("type", Json.string type) :: members).filter (·.1 = "type") =
        [("type", .string type)] := by
      simpa using others
    have untyped : (("type", Json.string type) :: members).filter (·.1 ≠ "type") = members := by
      simpa using others
    simp only [ofJson, split?, fits, whole, typed, untyped]
    exact body
  plain := plain_toJson
  notNull e := by cases e <;> nofun

/-- A notice can also be written as an array of its values. -/
theorem ofJson_array (e : InstanceEvent) {members : List (String × Json)}
    (written : e.toJson = .object members) : ofJson (.array (members.map (·.2))) = .ok e := by
  obtain ⟨type, others, written', -, body, same⟩ := e.bodyOfJson_toJson
  obtain rfl := Json.object.inj (written.symm.trans written')
  have fits := e.fits_toJson
  have whole := e.plain_toJson.isWhole
  rw [written] at fits whole
  have fits' : (Json.array ((("type", .string type) :: others).map (·.2))).fits maxDepth :=
    fits_array.mpr (List.forall_mem_map.mpr (fits_object.mp fits))
  have whole' : (Json.array ((("type", .string type) :: others).map (·.2))).isWhole :=
    wholeItems_iff.mpr (List.forall_mem_map.mpr (wholeMembers_iff.mp whole))
  rw [List.map_cons] at fits' whole' ⊢
  simp only [ofJson, fits', whole', split?]
  exact same.trans body

end InstanceEvent

end MeshControl
