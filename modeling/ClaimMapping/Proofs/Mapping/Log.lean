import ClaimMapping.Proofs.Journal.Notes
import ClaimMapping.Proofs.Mapping.Acceptance
import ClaimMapping.Proofs.Mapping.FirstFailure

namespace ClaimMapping.Mapping

open Attribute
open Expression (Bindings Environment Kind Library)
open Journal (Note Traced bind_eq_ok_iff seq_eq_ok_iff mapError_eq_ok_iff)
open Journal.Traced (notes_bind_of_ok)

/-- The only kind of value that a key takes. -/
def kindOf (key : String) : Kind := if key = groupsKey then .list else .string

/-- The kind in a note tells no more than the key: a list for the groups, a text for all others. -/
theorem kind_of_attributeOf {key : String} {v : Expression.Value} {a : Value}
    (h : attributeOf key v = .ok a) : v.kind = kindOf key := by
  unfold kindOf
  obtain ⟨hkey, items, rfl, -⟩ | ⟨hkey, s, rfl, -⟩ := attributeOf_eq_ok_iff.mp h
  · rw [if_pos hkey]
    rfl
  · rw [if_neg hkey]
    rfl

variable {env : Environment} {l : Library} {b : Bindings} {d : Derived} {condition : String}

theorem notes_evaluateEntry {key source : String} {a : Value}
    (h : (evaluateEntry env b key source).outcome = .ok a) :
    (evaluateEntry env b key source).notes = [.evaluated key (kindOf key)] := by
  rw [evaluateEntry_outcome] at h
  obtain ⟨v, hv, ha⟩ := bind_eq_ok_iff.mp h
  have hkind : v.kind = kindOf key := kind_of_attributeOf (mapError_eq_ok_iff.mp ha)
  rw [← hkind]
  exact notes_bind_of_ok hv _

theorem notes_evaluateMapping {m : KeyMap String} (h : (evaluateMapping env b m).outcome = .ok d) :
    (evaluateMapping env b m).notes =
      (KeyMap.keys m).map fun key => .evaluated key (kindOf key) := by
  induction m generalizing d with
  | nil => rfl
  | cons e m ih =>
    obtain ⟨key, source⟩ := e
    simp only [evaluateMapping, Traced.bind_outcome] at h
    obtain ⟨a, ha, h⟩ := bind_eq_ok_iff.mp h
    obtain ⟨rest, hrest, -⟩ := bind_eq_ok_iff.mp h
    have hentry := notes_evaluateEntry ha
    have hothers := ih hrest
    rw [evaluateMapping, notes_bind_of_ok ha, notes_bind_of_ok hrest, hentry, hothers]
    simp [KeyMap.keys]

theorem notes_verdict {outcome : Except Expression.Stop Expression.Value}
    (h : (verdict outcome).outcome = .ok ()) : (verdict outcome).notes = [] := by
  obtain rfl := verdict_eq_ok_iff.mp h
  rfl

theorem notes_checkCondition (h : (checkCondition l condition b d).outcome = .ok ()) :
    (checkCondition l condition b d).notes = [] := by
  rw [checkCondition_outcome] at h
  obtain ⟨v, hv, h⟩ := bind_eq_ok_iff.mp h
  obtain ⟨e, he, h⟩ := bind_eq_ok_iff.mp h
  have hverdict := notes_verdict h
  rw [checkCondition, notes_bind_of_ok hv, notes_bind_of_ok he, hverdict]
  rfl

theorem notes_acceptCondition (h : (acceptCondition l condition b d).outcome = .ok ()) :
    (acceptCondition l condition b d).notes =
      if condition = "" then [] else [.conditionAccepted] := by
  by_cases hc : condition = ""
  · rw [acceptCondition, if_pos hc, if_pos hc]
    rfl
  · rw [acceptCondition_outcome hc] at h
    have hnotes := notes_checkCondition h
    rw [acceptCondition, if_neg hc, if_neg hc, notes_bind_of_ok h, hnotes]
    rfl

/-- What an accepted run notes once a provider has read the payload. -/
def ownNotes (name : String) (keys : List String) (condition : String) : List Note :=
  .parsedBy name :: (keys.map fun key => .evaluated key (kindOf key)) ++
    .derived keys :: if condition = "" then [] else [.conditionAccepted]

theorem origin_of_mem_ownNotes {name : String} {keys : List String} {n : Note}
    (h : n ∈ ownNotes name keys condition) : n.origin = .run := by
  simp only [ownNotes, List.cons_append, List.mem_cons, List.mem_append, List.mem_map] at h
  obtain rfl | ⟨key, -, rfl⟩ | rfl | h := h
  · rfl
  · rfl
  · rfl
  · split_ifs at h
    · cases h
    · obtain rfl := List.mem_singleton.mp h
      rfl

theorem message_evaluated (key : String) :
    (Note.evaluated key (kindOf key)).message =
      "evaluated " ++ key ++ " to a " ++ if key = groupsKey then "list" else "string" := by
  have hname : (kindOf key).name = if key = groupsKey then "list" else "string" := by
    unfold kindOf
    split_ifs <;> rfl
  rw [← hname]
  rfl

theorem messages_ownNotes (name : String) (keys : List String) (condition : String) :
    (ownNotes name keys condition).map Note.message =
      ("payload parsed by the " ++ name ++ " provider") ::
        (keys.map fun key =>
          "evaluated " ++ key ++ " to a " ++ if key = groupsKey then "list" else "string") ++
        ("derived attributes: " ++ Text.bracketed (keys.map Text.quoted)) ::
          if condition = "" then [] else ["attribute condition accepted the credential"] := by
  have hlines : (keys.map fun key => Note.evaluated key (kindOf key)).map Note.message =
      keys.map fun key =>
        "evaluated " ++ key ++ " to a " ++ if key = groupsKey then "list" else "string" := by
    rw [List.map_map]
    exact List.map_congr_left fun key _ => message_evaluated key
  have hlast : (if condition = "" then [] else [Note.conditionAccepted]).map Note.message =
      if condition = "" then [] else ["attribute condition accepted the credential"] := by
    rw [apply_ite (List.map Note.message)]
    rfl
  have hname : (Note.parsedBy name).message = "payload parsed by the " ++ name ++ " provider" := rfl
  have hkeys : (Note.derived keys).message =
      "derived attributes: " ++ Text.bracketed (keys.map Text.quoted) := rfl
  rw [ownNotes, List.cons_append, List.map_cons, List.map_append, List.map_cons, hlines, hlast,
    hname, hkeys, List.cons_append]

/-- What the run adds to the notes of its provider is determined by the name of that provider, the
keys of the mapping and whether there is a condition, so it tells nothing of the payload. -/
theorem notes_run {s : Setting} {r : Request} (h : (s.run r).outcome = .ok d) :
    ∃ m p b, Accepts s r m p b d ∧
      (s.run r).notes = (s.resolve r).notes ++ ownNotes p.name (KeyMap.keys m) r.condition := by
  obtain ⟨m, p, b, haccepts⟩ := exists_accepts_of_run h
  refine ⟨m, p, b, haccepts, ?_⟩
  rw [run_outcome] at h
  obtain ⟨m', hcheck, h⟩ := bind_eq_ok_iff.mp h
  obtain ⟨⟨p', b'⟩, hresolve, h⟩ := bind_eq_ok_iff.mp h
  obtain ⟨hsources, h⟩ := seq_eq_ok_iff.mp h
  obtain ⟨d', hmapping, h⟩ := bind_eq_ok_iff.mp h
  obtain ⟨hderived, h⟩ := seq_eq_ok_iff.mp h
  obtain ⟨haccept, -⟩ := seq_eq_ok_iff.mp h
  obtain ⟨-, hm, -, -⟩ := Request.check_eq_ok_iff.mp (mapError_eq_ok_iff.mp hcheck)
  -- The stages ran on the mapping and the provider that the run was accepted with.
  obtain rfl : m = m' := Option.some.inj (haccepts.mapping.symm.trans hm)
  have hresolves := Setting.resolve_eq_ok_iff.mp (mapError_eq_ok_iff.mp hresolve)
  obtain ⟨rfl, rfl⟩ := haccepts.resolved.unique hresolves
  have hkeys : KeyMap.keys d' = KeyMap.keys m := (evaluateMapping_eq_ok_iff.mp hmapping).keys_eq
  rw [Setting.run, notes_bind_of_ok hcheck, notes_bind_of_ok hresolve,
    notes_bind_of_ok (a := ()) rfl, notes_bind_of_ok (a := ()) hsources,
    notes_bind_of_ok hmapping, notes_bind_of_ok (a := ()) rfl,
    notes_bind_of_ok (a := ()) hderived, notes_bind_of_ok haccept,
    notes_evaluateMapping hmapping, notes_acceptCondition haccept, hkeys]
  simp [ownNotes]

/-- Two accepted payloads of one provider leave the same log, but for what the provider notes: one
line for each key, in the order of the bytes, with no more than the kind that the key asks for. -/
theorem notes_of_accepted {s : Setting} {name condition : String} {m : KeyMap String}
    (hm : KeyMap.Ordered m) {payload payload' : String} {d d' : Derived}
    (h : (s.run ⟨payload, some m, condition, some name⟩).outcome = .ok d)
    (h' : (s.run ⟨payload', some m, condition, some name⟩).outcome = .ok d') :
    ∃ own : List Note,
      (s.run ⟨payload, some m, condition, some name⟩).notes =
        (s.resolve ⟨payload, some m, condition, some name⟩).notes ++ own ∧
      (s.run ⟨payload', some m, condition, some name⟩).notes =
        (s.resolve ⟨payload', some m, condition, some name⟩).notes ++ own ∧
      (∀ n ∈ own, n.origin = .run) ∧
      own.map Note.message =
        ("payload parsed by the " ++ name ++ " provider") ::
          ((KeyMap.keys m).map fun key =>
            "evaluated " ++ key ++ " to a " ++ if key = groupsKey then "list" else "string") ++
          ("derived attributes: " ++ Text.bracketed ((KeyMap.keys m).map Text.quoted)) ::
            (if condition = "" then [] else ["attribute condition accepted the credential"]) ∧
      ((KeyMap.keys m).map Text.Utf8.bytes).Pairwise (· < ·) := by
  have hown {payload : String} {d : Derived}
      (h : (s.run ⟨payload, some m, condition, some name⟩).outcome = .ok d) :
      (s.run ⟨payload, some m, condition, some name⟩).notes =
        (s.resolve ⟨payload, some m, condition, some name⟩).notes ++
          ownNotes name (KeyMap.keys m) condition := by
    obtain ⟨m', p, b, haccepts, hnotes⟩ := notes_run h
    cases haccepts.mapping
    cases haccepts.resolved with
    | named name' before after given split others match_name accepts =>
      cases given
      rwa [match_name] at hnotes
    | first before after given => cases given
  have hbytes : ((KeyMap.keys m).map Text.Utf8.bytes).Pairwise (· < ·) :=
    List.pairwise_map.mpr (hm.imp fun hlt => Text.Utf8.bytes_strictMono hlt)
  exact ⟨ownNotes name (KeyMap.keys m) condition, hown h, hown h',
    fun n hn => origin_of_mem_ownNotes hn, messages_ownNotes name (KeyMap.keys m) condition, hbytes⟩

def groupsEntries : KeyMap String :=
  [("google.groups", "assertion.groups"), ("google.subject", "assertion.sub")]

def annClaims : String := "\x7b\"sub\":\"ann\",\"groups\":[\"x\"]\x7d"

def bobClaims : String := "\x7b\"sub\":\"bob\",\"groups\":[\"y\",\"z\"]\x7d"

/-- Groups and subject of the given claims, of which some group is asked for. -/
def groupsRequest (claims : String) : Request :=
  ⟨claims, some groupsEntries, "size(google.groups) > 0", some "oidc"⟩

theorem notes_groupsRequest :
    KeyMap.Ordered groupsEntries ∧
      (Setting.standard.run (groupsRequest annClaims)).outcome =
        .ok [("google.groups", .list ["x"]), ("google.subject", .text "ann")] ∧
      (Setting.standard.run (groupsRequest bobClaims)).outcome =
        .ok [("google.groups", .list ["y", "z"]), ("google.subject", .text "bob")] ∧
      ∃ own : List Note, own.length = 5 ∧
        (Setting.standard.run (groupsRequest annClaims)).notes =
          (Setting.standard.resolve (groupsRequest annClaims)).notes ++ own ∧
        (Setting.standard.run (groupsRequest bobClaims)).notes =
          (Setting.standard.resolve (groupsRequest bobClaims)).notes ++ own := by
  have hordered : KeyMap.Ordered groupsEntries := by
    unfold KeyMap.Ordered
    decide
  have hann : (Setting.standard.run (groupsRequest annClaims)).outcome =
      .ok [("google.groups", .list ["x"]), ("google.subject", .text "ann")] :=
    Journal.eq_ok_of_toOption (by decide +kernel)
  have hbob : (Setting.standard.run (groupsRequest bobClaims)).outcome =
      .ok [("google.groups", .list ["y", "z"]), ("google.subject", .text "bob")] :=
    Journal.eq_ok_of_toOption (by decide +kernel)
  obtain ⟨own, hown, hown', -, hmessages, -⟩ := notes_of_accepted hordered hann hbob
  have hlength : own.length = 5 := by
    have hsame := congrArg List.length hmessages
    rw [List.length_map] at hsame
    exact hsame
  exact ⟨hordered, hann, hbob, own, hlength, hown, hown'⟩

end ClaimMapping.Mapping
