import Mathlib
import MeshControl.Proofs.Api.Resolution
import MeshControl.Proofs.Json.Strings

/-!
# Asking for stored host names

Callers ask for the address of a host name by a path, in which every text can be written. Routes are
stored with their host names in lower case, but a host name is looked up without the points at its
end. So callers who ask for the host name of a stored internal route are told the address of a
stored route of that name, unless the name ends with a point. Of such a name they are told what is
known of another one.

## Main definitions

* `Api.Writes` — a part of a path stands for a text.
* `Api.encodedPart` — a part that stands for a given text.
-/

namespace MeshControl

/-! ## Points at the end -/

namespace Text

/-- Whether a text ends with a character. -/
def EndsWith (c : Char) (s : String) : Prop := s.toList.getLast? = some c

theorem toList_trimEnd (c : Char) (s : String) :
    (trimEnd c s).toList = s.toList.rdropWhile (· == c) := by
  rw [trimEnd, String.toList_ofList, List.rdropWhile]

theorem trimEnd_eq_self_iff {c : Char} {s : String} : trimEnd c s = s ↔ ¬ EndsWith c s := by
  rw [← String.toList_inj, toList_trimEnd, List.rdropWhile_eq_self_iff, EndsWith]
  constructor
  · intro other last
    have nonempty : s.toList ≠ [] := by
      rintro nil
      rw [nil] at last
      cases last
    rw [List.getLast?_eq_some_getLast nonempty] at last
    exact other nonempty (beq_iff_eq.mpr (Option.some.inj last))
  · intro other nonempty last
    rw [List.getLast?_eq_some_getLast nonempty] at other
    exact other (congrArg some (beq_iff_eq.mp last))

theorem IsLower.trimEnd {s : String} (h : IsLower s) (c : Char) : IsLower (trimEnd c s) := by
  intro d hd
  rw [toList_trimEnd] at hd
  exact h d ((List.rdropWhile_prefix (· == c) s.toList).subset hd)

end Text

namespace Route.Directory

variable {d : Directory} {hostname : String}

/-- A host name in lower case is looked up without the points at its end. -/
theorem lookupName_of_isLower (h : Text.IsLower hostname) :
    lookupName hostname = Text.trimEnd '.' hostname :=
  (h.trimEnd '.').lower_eq

/-- What a look-up finds is the address of a stored route with the host name that is looked up. -/
theorem Indexed.exists_route_of_vipOf? (h : d.Indexed) {v : String}
    (found : d.vipOf? hostname = some v) :
    ∃ r ∈ d.list, r.host = lookupName hostname ∧ r.vip = some v := by
  rw [h.vipOf?_eq_findSome?] at found
  obtain ⟨r, member, vip⟩ := List.exists_of_findSome?_eq_some found
  obtain ⟨stored, host⟩ := List.mem_filter.mp member
  exact ⟨r, stored, of_decide_eq_true host, vip⟩

theorem Indexed.isSome_vipOf?_iff (h : d.Indexed) : (d.vipOf? hostname).isSome ↔
    ∃ r ∈ d.list, r.host = lookupName hostname ∧ r.vip.isSome := by
  rw [h.vipOf?_eq_findSome?, List.findSome?_isSome_iff]
  simp only [List.mem_filter, decide_eq_true_iff, and_assoc]

end Route.Directory

/-! ## Parts of a path -/

namespace Percent

/-- An escape is made of characters of ASCII, and has no slash. -/
theorem of_mem_encode {bytes : List UInt8} {b : UInt8} (h : b ∈ encode bytes) :
    b.toNat < 128 ∧ b.toNat ≠ 0x2F := by
  have digit : ∀ n, n < 16 → Text.hexDigit n < 128 ∧ Text.hexDigit n ≠ 0x2F := by
    intro n hn
    simp only [Text.hexDigit]
    split <;> omega
  obtain ⟨x, -, hb⟩ := List.mem_flatMap.mp h
  have hx : x.toNat < 256 := x.toNat_lt
  have high := digit (x.toNat / 16) (by omega)
  have low := digit (x.toNat % 16) (by omega)
  simp only [List.mem_cons, List.not_mem_nil, or_false] at hb
  rcases hb with rfl | rfl | rfl
  · decide
  · rw [UInt8.toNat_ofNat_of_lt' (by simp only [UInt8.size]; omega)]
    exact high
  · rw [UInt8.toNat_ofNat_of_lt' (by simp only [UInt8.size]; omega)]
    exact low

theorem toNat_ofNat_of_mem_encode {bytes : List UInt8} {b : UInt8} (h : b ∈ encode bytes) :
    (Char.ofNat b.toNat).toNat = b.toNat := by
  have small := (of_mem_encode h).1
  rw [Char.toNat_ofNat, if_pos (.inl (by omega))]

end Percent

namespace Api

/-- A part of a path stands for a text. -/
structure Writes (part s : String) : Prop where
  single : '/' ∉ part.toList
  decoded : Action.decodePart part = .ok s

/-- A part that stands for a text, with an escape for every byte. -/
def encodedPart (s : String) : String :=
  String.ofList ((Percent.encode (Utf8.encode s)).map fun b => Char.ofNat b.toNat)

theorem encode_encodedPart (s : String) :
    Utf8.encode (encodedPart s) = Percent.encode (Utf8.encode s) := by
  rw [encodedPart, Utf8.encode_ofList, List.flatMap_map]
  have byte : ∀ b ∈ Percent.encode (Utf8.encode s),
      String.utf8EncodeChar (Char.ofNat b.toNat) = [b] := by
    intro b hb
    have code := Percent.toNat_ofNat_of_mem_encode hb
    have small := (Percent.of_mem_encode hb).1
    rw [Utf8.utf8EncodeChar_of_lt (by omega), code, UInt8.ofNat_toNat]
  rw [List.flatMap_congr byte]
  simp

/-- Every text can be written in a path. -/
theorem writes_encodedPart (s : String) : Writes (encodedPart s) s := by
  constructor
  · intro slash
    rw [encodedPart, String.toList_ofList] at slash
    obtain ⟨b, hb, same⟩ := List.mem_map.mp slash
    have code := Percent.toNat_ofNat_of_mem_encode hb
    rw [same] at code
    exact (Percent.of_mem_encode hb).2 code.symm
  · rw [Action.decodePart, encode_encodedPart, Percent.decode_encode, Utf8.decode?_encode]

theorem Writes.part_ne {part s : String} (h : Writes part s) (nonempty : s ≠ "") : part ≠ "" := by
  rintro rfl
  have empty : Action.decodePart "" = .ok "" := rfl
  exact nonempty (Except.ok.inj (h.decoded.symm.trans empty))

/-- The path that asks for the address of a host name. -/
def vipPath (part : String) : String := "/api/v1/vips/" ++ part

theorem Writes.ofPath_vipPath {part s : String} (h : Writes part s) (nonempty : s ≠ "") :
    Endpoint.ofPath (vipPath part) = some (.vip part) := by
  let parts : List (List Char) := ["".toList, "api".toList, "v1".toList, "vips".toList, part.toList]
  have joined : (vipPath part).toList = [('/' : Char)].intercalate parts := by
    simp [vipPath, parts, List.intercalate]
  have split : Text.split '/' (vipPath part) = ["", "api", "v1", "vips", part] := by
    rw [Text.split, joined, List.splitOn_intercalate]
    · simp [parts]
    · simp [parts, h.single]
    · simp [parts]
  have full : ["vips", part].contains "" = false := by
    simp [(h.part_ne nonempty).symm]
  simp only [Endpoint.ofPath, split, full]
  rfl

theorem Writes.asks {part s : String} (h : Writes part s) (nonempty : s ≠ "") {q : Request}
    (get : q.method = "GET") (path : q.path = vipPath part) :
    Action.ofRequest q = .ok (.getVip s) := by
  rw [Action.ofRequest, path, h.ofPath_vipPath nonempty, get]
  simp only [Action.ofMethod, h.decoded]
  rfl

end Api

/-! ## Stored host names -/

namespace Pipeline

open Text (EndsWith trimEnd)

/-- Callers can write the host name of every stored internal route in a path. Who asks for it is
told the address of a stored route with that host name, unless it ends with a point. Who asks for a
host name that does is told an address if and only if some stored route has the name without the
points at its end, and an address. -/
theorem respond_getVip_of_stored {start : Pipeline} (fresh : start.Fresh) (told : NodeId)
    (steps : List Step) {r : Route}
    (stored : r ∈ (start.run told steps).plane.desired.routes.list) (internal : r.isInternal) :
    let c := (start.run told steps).plane
    let routes := c.desired.routes.list
    (∃ part, Api.Writes part r.host) ∧
    ∀ (q : Api.Request) (part : String), q.method = "GET" → q.path = Api.vipPath part →
      Api.Writes part r.host →
        (¬ EndsWith '.' r.host → ∃ s ∈ routes, s.host = r.host ∧ ∃ v, s.vip = some v ∧
          (Api.respond told c q).2 = .success (Api.vipView r.host v)) ∧
        (EndsWith '.' r.host →
          ((Api.respond told c q).2.status = 200 ↔
            ∃ s ∈ routes, s.host = trimEnd '.' r.host ∧ s.vip.isSome)) := by
  intro c routes
  have admitted := (fresh.sound.run told steps).admitted
  have indexed : c.desired.routes.Indexed := admitted.indexed
  have form : r.Admitted := admitted.route stored
  have name : Route.Directory.lookupName r.host = trimEnd '.' r.host :=
    Route.Directory.lookupName_of_isLower form.lower
  refine ⟨⟨_, Api.writes_encodedPart r.host⟩, fun q part get path writes => ?_⟩
  have asks : Api.Action.ofRequest q = .ok (.getVip r.host) := writes.asks form.host_ne get path
  constructor
  · intro plain
    have same : Route.Directory.lookupName r.host = r.host :=
      name.trans (Text.trimEnd_eq_self_iff.mpr plain)
    have address := (form.internal_and_vip internal).2
    have known : (c.desired.routes.vipOf? r.host).isSome :=
      indexed.isSome_vipOf?_iff.mpr ⟨r, stored, same.symm, address⟩
    obtain ⟨v, found⟩ := Option.isSome_iff_exists.mp known
    obtain ⟨s, hs, host, vip⟩ := indexed.exists_route_of_vipOf? found
    exact ⟨s, hs, host.trans same, v, vip, (Api.respond_getVip_eq_iff asks get).mpr found⟩
  · intro _
    rw [← name, ← indexed.isSome_vipOf?_iff, Api.respond_getVip asks get]
    cases c.desired.routes.vipOf? r.host with
    | none => simp [Api.Response.ofRefusal, Api.Refusal.status]
    | some v => simp [Api.Response.success]

/-- The host name of one of two internal routes is asked for with its first point escaped. -/
theorem respond_getVip_of_stored_escaped :
    let c := (blank.run "default" (twoRoutesSteps "127.1.1.3" "127.2.2.3")).plane
    let r : Route := ⟨"db-api", "db.apps.internal", some "/api", true, some "127.2.2.3"⟩
    let q : Api.Request := ⟨"GET", Api.vipPath "db%2Eapps.internal", none, []⟩
    blank.Fresh ∧ r ∈ c.desired.routes.list ∧ r.isInternal ∧
      Api.Writes "db%2Eapps.internal" r.host ∧ ¬ EndsWith '.' r.host ∧
      ∃ s ∈ c.desired.routes.list, s.host = r.host ∧ ∃ v, s.vip = some v ∧
        (Api.respond "default" c q).2 = .success (Api.vipView r.host v) := by
  intro c r q
  have stored : r ∈ c.desired.routes.list := by
    have stated : c.desired = twoRoutes "127.1.1.3" "127.2.2.3" := by decide +kernel
    rw [stated]
    decide
  have writes : Api.Writes "db%2Eapps.internal" r.host := ⟨by decide, rfl⟩
  have plain : ¬ EndsWith '.' r.host := by
    unfold EndsWith
    decide
  refine ⟨fresh_blank, stored, rfl, writes, plain, ?_⟩
  exact ((respond_getVip_of_stored fresh_blank "default" _ stored rfl).2 q _ rfl rfl writes).1 plain

/-- A route is stated whose host name ends with a point. -/
def postPointed : Api.Request where
  method := "POST"
  path := "/api/v1/routes"
  contentType := some "application/json"
  body := Utf8.encode "[\"db\",\"db.internal.\",null,true,\"127.1.1.3\"]"

/-- Callers are told nothing of the host name of an internal route with an address. -/
theorem not_found_of_pointed :
    let c := (blank.run "default" [.request postPointed]).plane
    let r : Route := ⟨"db", "db.internal.", none, true, some "127.1.1.3"⟩
    blank.Fresh ∧ r ∈ c.desired.routes.list ∧ r.isInternal ∧ Api.Writes "db.internal." r.host ∧
      (Api.respond "default" c ⟨"GET", Api.vipPath "db.internal.", none, []⟩).2 =
        .ofRefusal (.notFound "vip for db.internal.") := by
  intro c r
  have stated : c.desired = ⟨.ofList [r], ∅, ∅⟩ := by decide +kernel
  have asks : Api.Action.ofRequest ⟨"GET", Api.vipPath "db.internal.", none, []⟩ =
      .ok (.getVip "db.internal.") := rfl
  refine ⟨fresh_blank, ?_, rfl, ⟨by decide, rfl⟩, ?_⟩
  · rw [stated]
    decide
  · have missing : (Route.Directory.ofList [r]).vipOf? "db.internal." = none := by decide
    have text : toString "vip for " ++ toString "db.internal." = "vip for db.internal." := by decide
    rw [Api.respond_getVip asks rfl, stated, missing, text]

end Pipeline

end MeshControl
