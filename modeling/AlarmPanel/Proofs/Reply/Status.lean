import AlarmPanel.Proofs.Device.Request
import AlarmPanel.Proofs.Reply.Noise
import AlarmPanel.Proofs.Reply.Payload

namespace AlarmPanel

open Payload

namespace ReplyToken

theorem notMem_text (token : ReplyToken) : '=' ∉ token.text.toList := by
  cases token <;> decide

theorem text_inj {token token' : ReplyToken} (h : token.text.toList = token'.text.toList) :
    token = token' := by
  revert h
  cases token <;> cases token' <;> decide

theorem text_ne_empty (token : ReplyToken) : token.text ≠ "" := by
  cases token <;> decide

end ReplyToken

structure StatusTable (α : Type) where
  kind : String
  operation : Operation
  code : α → UInt8

namespace StatusTable

def zones : StatusTable ZoneStatus := ⟨"ZoneStatus", .zoneStatus, ZoneStatus.code⟩

def areas : StatusTable AreaStatus := ⟨"AreaStatus", .areaStatus, AreaStatus.code⟩

variable {α : Type} (t : StatusTable α)

def command (n : UInt32) : String :=
  (Command.indexed t.operation n).text

def Lists (code : UInt32) : Prop :=
  ∃ s, (t.code s).toNat = code.toNat

structure Decodes (ofCode : UInt32 → Except PanelError α) : Prop where
  ok_iff : ∀ code s, ofCode code = .ok s ↔ (t.code s).toNat = code.toNat
  error_iff : ∀ code e, ofCode code = .error e ↔ e = .decode t.kind code ∧ ¬ t.Lists code

/-- The result of a query whose reply is `raw`, which depends on nothing but its payload. -/
structure Judges (n : UInt32) (raw : List Char) (r : Except PanelError α) : Prop where
  status : ∀ s, r = .ok s ↔ Tells 16 (Reply.clean raw) (t.code s).toNat
  unlisted : ∀ code,
    r = .error (.decode t.kind code) ↔ Tells 16 (Reply.clean raw) code.toNat ∧ ¬ t.Lists code
  malformed : (∃ details, r = .error (.malformedResponse details)) ↔
    (∃ m, Tells 16 (Reply.clean raw) m ∧ (m < 0 ∨ 2 ^ 32 ≤ m)) ∨
      Reply.clean raw ≠ [] ∧ (∀ token : ReplyToken, Reply.clean raw ≠ token.text.toList) ∧
        ∀ m, ¬ Tells 16 (Reply.clean raw) m
  failure : ∀ token : ReplyToken,
    r = .error (.errorResponse (t.command n) token) ↔ Reply.clean raw = token.text.toList
  empty : r = .error (.noResponse (t.command n)) ↔ Reply.clean raw = []

variable {t}

theorem decodes_find {all : List α} {ofCode : UInt32 → Except PanelError α}
    (hall : ∀ s, s ∈ all) (hinj : ∀ s s', t.code s = t.code s' → s = s')
    (hfind : ∀ code, ofCode code = (all.find? fun s ↦ (t.code s).toUInt32 == code).elim
      (.error (.decode t.kind code)) .ok) : t.Decodes ofCode := by
  have hcode (s : α) (code : UInt32) :
      ((t.code s).toUInt32 == code) = true ↔ (t.code s).toNat = code.toNat := by
    rw [beq_iff_eq, ← UInt32.toNat_inj, UInt8.toNat_toUInt32]
  have hcases (code : UInt32) : (∃ s, ofCode code = .ok s ∧ (t.code s).toNat = code.toNat) ∨
      ofCode code = .error (.decode t.kind code) ∧ ¬ t.Lists code := by
    rw [hfind]
    cases h : all.find? fun s ↦ (t.code s).toUInt32 == code with
    | some s =>
      have hs := List.find?_some h
      rw [hcode] at hs
      exact .inl ⟨s, rfl, hs⟩
    | none =>
      refine .inr ⟨rfl, ?_⟩
      rintro ⟨s, hs⟩
      exact List.find?_eq_none.mp h s (hall s) ((hcode s code).mpr hs)
  constructor
  · intro code s
    rcases hcases code with ⟨s', he, hs'⟩ | ⟨he, hn⟩
    · rw [he, Except.ok.injEq]
      constructor
      · rintro rfl
        exact hs'
      · intro hs
        exact hinj _ _ (UInt8.toNat_inj.mp (hs'.trans hs.symm))
    · rw [he]
      exact ⟨fun h ↦ (by cases h), fun hs ↦ absurd ⟨s, hs⟩ hn⟩
  · intro code e
    rcases hcases code with ⟨s', he, hs'⟩ | ⟨he, hn⟩
    · rw [he]
      exact ⟨fun h ↦ (by cases h), fun h ↦ absurd ⟨s', hs'⟩ h.2⟩
    · rw [he, Except.error.injEq]
      exact ⟨fun h ↦ ⟨h.symm, hn⟩, fun h ↦ h.1.symm⟩

theorem decodes_zones : zones.Decodes ZoneStatus.ofCode := by
  have hall : ∀ s, s ∈ ZoneStatus.all := fun s ↦ by cases s <;> decide
  have hinj : ∀ s s', zones.code s = zones.code s' → s = s' :=
    fun s s' ↦ by cases s <;> cases s' <;> decide
  refine decodes_find hall hinj fun code ↦ ?_
  change _ = (ZoneStatus.all.find? fun s ↦ s.code.toUInt32 == code).elim _ _
  rw [ZoneStatus.ofCode]
  cases ZoneStatus.all.find? fun s ↦ s.code.toUInt32 == code <;> rfl

theorem decodes_areas : areas.Decodes AreaStatus.ofCode := by
  have hall : ∀ s, s ∈ AreaStatus.all := fun s ↦ by cases s <;> decide
  have hinj : ∀ s s', areas.code s = areas.code s' → s = s' :=
    fun s s' ↦ by cases s <;> cases s' <;> decide
  refine decodes_find hall hinj fun code ↦ ?_
  change _ = (AreaStatus.all.find? fun s ↦ s.code.toUInt32 == code).elim _ _
  rw [AreaStatus.ofCode]
  cases AreaStatus.all.find? fun s ↦ s.code.toUInt32 == code <;> rfl

def read (t : StatusTable α) (ofCode : UInt32 → Except PanelError α) (payload : String) :
    Except PanelError α :=
  ((readInt 16 payload.toList).bind (wireCode t.kind)).bind ofCode

section

variable {ofCode : UInt32 → Except PanelError α} {p : List Char} {kind : String} {code : UInt32}
  {e : PanelError} {s : α}

theorem readCode_eq_ok_iff :
    (readInt 16 p).bind (wireCode kind) = .ok code ↔ Tells 16 p code.toNat := by
  have hlt : code.toNat < 2 ^ 32 := code.toNat_lt
  have hb : -2 ^ 63 ≤ (code.toNat : Int) ∧ (code.toNat : Int) < 2 ^ 63 := by omega
  have hok : readInt 16 p = .ok (code.toNat : Int) ↔ Tells 16 p code.toNat := by
    rw [readInt_eq_ok_iff (by decide) (by decide), and_iff_left hb]
  rw [← hok]
  cases readInt 16 p with
  | error e => simp [Except.bind]
  | ok n => rw [Except.ok_bind, wireCode_eq_ok_iff, Except.ok.injEq]

theorem malformed_of_readCode (h : (readInt 16 p).bind (wireCode kind) = .error e) :
    ∃ details, e = .malformedResponse details := by
  cases hr : readInt 16 p with
  | error e' =>
    rw [hr] at h
    cases h
    exact malformed_of_readInt hr
  | ok n =>
    rw [hr, Except.ok_bind, wireCode] at h
    split at h
    · cases h
    · cases h
      exact ⟨_, rfl⟩

theorem malformed_readCode_iff :
    (∃ details, (readInt 16 p).bind (wireCode kind) = .error (.malformedResponse details)) ↔
      (∃ m, Tells 16 p m ∧ (m < 0 ∨ 2 ^ 32 ≤ m)) ∨ ∀ m, ¬ Tells 16 p m := by
  cases h : (readInt 16 p).bind (wireCode kind) with
  | ok code =>
    have ht := readCode_eq_ok_iff.mp h
    have hlt : code.toNat < 2 ^ 32 := code.toNat_lt
    refine ⟨fun he ↦ (by simp at he), ?_⟩
    rintro (⟨m, hm, hout⟩ | hno)
    · have := hm.unique (by decide) (by decide) ht
      omega
    · exact absurd ht (hno _)
  | error e =>
    obtain ⟨details, rfl⟩ := malformed_of_readCode h
    refine ⟨fun _ ↦ ?_, fun _ ↦ ⟨details, rfl⟩⟩
    by_cases hm : ∃ m, Tells 16 p m
    · obtain ⟨m, hm⟩ := hm
      refine .inl ⟨m, hm, ?_⟩
      by_contra hout
      have hlt : m.toNat < 2 ^ 32 := by omega
      have hcode : ((UInt32.ofNat m.toNat).toNat : Int) = m := by
        rw [UInt32.toNat_ofNat_of_lt' hlt]
        omega
      rw [← hcode] at hm
      cases h.symm.trans (readCode_eq_ok_iff.mpr hm)
    · exact .inr fun m hm' ↦ hm ⟨m, hm'⟩

theorem read_eq_ok_iff (h : t.Decodes ofCode) {payload : String} :
    t.read ofCode payload = .ok s ↔ Tells 16 payload.toList (t.code s).toNat := by
  have hs : (t.code s).toUInt32.toNat = (t.code s).toNat := UInt8.toNat_toUInt32 _
  have hcode : (readInt 16 payload.toList).bind (wireCode t.kind) = .ok (t.code s).toUInt32 ↔
      Tells 16 payload.toList (t.code s).toNat := by
    rw [readCode_eq_ok_iff, hs]
  rw [read, ← hcode]
  cases (readInt 16 payload.toList).bind (wireCode t.kind) with
  | error e => simp [Except.bind]
  | ok code => rw [Except.ok_bind, h.ok_iff, Except.ok.injEq, ← hs, UInt32.toNat_inj, eq_comm]

theorem read_eq_error_iff (h : t.Decodes ofCode) {payload : String} :
    t.read ofCode payload = .error e ↔
      (readInt 16 payload.toList).bind (wireCode t.kind) = .error e ∨
        ∃ code, e = .decode t.kind code ∧ Tells 16 payload.toList code.toNat ∧ ¬ t.Lists code := by
  rw [read]
  cases hr : (readInt 16 payload.toList).bind (wireCode t.kind) with
  | error e' =>
    have hn {code : UInt32} : ¬ Tells 16 payload.toList code.toNat := by
      intro ht
      cases hr.symm.trans (readCode_eq_ok_iff.mpr ht)
    simp [Except.bind, hn]
  | ok code =>
    have ht := readCode_eq_ok_iff.mp hr
    rw [Except.ok_bind, h.error_iff]
    constructor
    · rintro ⟨rfl, hl⟩
      exact .inr ⟨code, rfl, ht, hl⟩
    · rintro (hc | ⟨code', rfl, ht', hl⟩)
      · cases hc
      · cases hr.symm.trans (readCode_eq_ok_iff.mpr ht')
        exact ⟨rfl, hl⟩

theorem read_eq_decode_iff (h : t.Decodes ofCode) {payload : String} :
    t.read ofCode payload = .error (.decode t.kind code) ↔
      Tells 16 payload.toList code.toNat ∧ ¬ t.Lists code := by
  rw [read_eq_error_iff h]
  constructor
  · rintro (he | ⟨code', hc, hl⟩)
    · obtain ⟨details, hd⟩ := malformed_of_readCode he
      cases hd
    · cases hc
      exact hl
  · exact fun hl ↦ .inr ⟨code, rfl, hl⟩

theorem malformed_read_iff (h : t.Decodes ofCode) {payload : String} :
    (∃ details, t.read ofCode payload = .error (.malformedResponse details)) ↔
      (∃ m, Tells 16 payload.toList m ∧ (m < 0 ∨ 2 ^ 32 ≤ m)) ∨ ∀ m, ¬ Tells 16 payload.toList m := by
  have hcode : (∃ details, (readInt 16 payload.toList).bind (wireCode t.kind) =
      .error (.malformedResponse details)) ↔ _ := malformed_readCode_iff
  rw [← hcode]
  simp [read_eq_error_iff h]

theorem error_of_read (h : t.Decodes ofCode) {payload : String}
    (he : t.read ofCode payload = .error e) :
    (∃ details, e = .malformedResponse details) ∨ ∃ code, e = .decode t.kind code := by
  rcases (read_eq_error_iff h).mp he with he | ⟨code, hc, -⟩
  · exact .inl (malformed_of_readCode he)
  · exact .inr ⟨code, hc⟩

theorem judges_read (h : t.Decodes ofCode) (n : UInt32) {raw : List Char} (hn : Reply.clean raw ≠ [])
    (ht : ∀ token : ReplyToken, Reply.clean raw ≠ token.text.toList) :
    t.Judges n raw (t.read ofCode (String.ofList (Reply.clean raw))) := by
  have hp : (String.ofList (Reply.clean raw)).toList = Reply.clean raw := String.toList_ofList
  constructor
  case status =>
    intro s
    rw [read_eq_ok_iff h, hp]
  case unlisted =>
    intro code
    rw [read_eq_decode_iff h, hp]
  case malformed =>
    rw [malformed_read_iff h, hp, and_iff_right ht, and_iff_right hn]
  case failure =>
    refine fun token ↦ ⟨fun he ↦ ?_, fun hc ↦ absurd hc (ht token)⟩
    rcases error_of_read h he with ⟨details, hd⟩ | ⟨code, hc⟩
    · cases hd
    · cases hc
  case empty =>
    refine ⟨fun he ↦ ?_, fun hc ↦ absurd hc hn⟩
    rcases error_of_read h he with ⟨details, hd⟩ | ⟨code, hc⟩
    · cases hd
    · cases hc

theorem judges_answer (h : t.Decodes ofCode) (n : UInt32) (raw : List Char) :
    t.Judges n raw (((Reply.classify raw).payload (t.command n)).bind (t.read ofCode)) := by
  rcases Reply.classify_cases raw with ⟨hc, hr⟩ | ⟨token, hc, hr⟩ | ⟨⟨hn, ht⟩, hr⟩
  · have hno (m : Int) : ¬ Tells 16 [] m := not_tells_of_notMem (by simp)
    have hne (token : ReplyToken) : [] ≠ token.text.toList :=
      fun h ↦ token.text_ne_empty (String.toList_eq_nil_iff.mp h.symm)
    rw [hr]
    constructor <;> simp [Reply.payload, Except.bind, hc, hno, hne]
  · have hno (m : Int) : ¬ Tells 16 token.text.toList m := not_tells_of_notMem token.notMem_text
    have hinj (token' : ReplyToken) : token = token' ↔ token.text.toList = token'.text.toList :=
      ⟨fun h ↦ by rw [h], ReplyToken.text_inj⟩
    have hself : ∃ token' : ReplyToken, token.text.toList = token'.text.toList := ⟨token, rfl⟩
    rw [hr]
    constructor <;> simp [Reply.payload, Except.bind, hc, hno, hinj, hself, token.text_ne_empty]
  · rw [hr]
    exact judges_read h n hn ht

end

end StatusTable

end AlarmPanel
