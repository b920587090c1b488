import AlarmPanel.Instruction
import AlarmPanel.Proofs.Command.Rendering

namespace AlarmPanel

def ArmMode.names : ArmMode → List String
  | away => ["A", "away"]
  | force => ["F", "force"]
  | stay => ["S", "stay"]
  | instant => ["I", "instant"]

namespace Instruction

open Command

/-- The instruction asks for the command. Labels have no instruction; a raw command has one of its own. -/
def Asks (i : Instruction) : Command → Prop
  | indexed .zoneStatus n => i.op = "ZONE_STATUS" ∧ i.zone = some n
  | indexed .areaStatus n => i.op = "AREA_STATUS" ∧ n = i.areaOrFirst
  | indexed .openInput n => i.op = "VIRTUAL_INPUT" ∧ i.input = some n ∧ i.opened ≠ some false
  | indexed .closeInput n => i.op = "VIRTUAL_INPUT" ∧ i.input = some n ∧ i.opened = some false
  | indexed .emergencyPanic n => i.op = "PANIC_EMERGENCY" ∧ n = i.areaOrFirst
  | indexed .medicalPanic n => i.op = "PANIC_MEDICAL" ∧ n = i.areaOrFirst
  | indexed .firePanic n => i.op = "PANIC_FIRE" ∧ n = i.areaOrFirst
  | indexed .smokeReset n => i.op = "SMOKE_RESET" ∧ n = i.areaOrFirst
  | arm area mode code =>
    i.op = "ARM" ∧ area = i.areaOrFirst ∧ i.mode.getD "away" ∈ mode.names ∧ i.code = some code
  | disarm area code => i.op = "DISARM" ∧ area = i.areaOrFirst ∧ i.code = some code
  | setPower state => i.op = "POWER" ∧ i.state = some state
  | powerQuery => i.op = "POWER_STATE"
  | errorQuery => i.op = "ERROR"
  | resetAll => i.op = "RESET_ALL"
  | indexed .zoneLabel _ | indexed .areaLabel _ | indexed .userLabel _ | raw _ => False

variable {α : Type} {i : Instruction} {c : Command}

theorem of_required {name : String} {o : Option α} {f : α → Command}
    (h : (required name o).map f = .ok c) : ∃ a, o = some a ∧ f a = c := by
  cases o with
  | none => cases h
  | some a => exact ⟨a, rfl, Except.ok.inj h⟩

theorem of_modeNamed? {name : String} {mode : ArmMode} (h : modeNamed? name = some mode) :
    name ∈ mode.names := by
  unfold modeNamed? at h
  cases mode <;> grind [ArmMode.names]

theorem of_armMode {mode : ArmMode} (h : i.armMode = .ok mode) :
    i.mode.getD "away" ∈ mode.names := by
  unfold armMode at h
  split at h
  case h_1 hn =>
    cases h
    rw [hn]
    decide
  case h_2 name hn =>
    rw [hn]
    cases hm : modeNamed? name with
    | none =>
      rw [hm] at h
      cases h
    | some m =>
      rw [hm] at h
      cases h
      exact of_modeNamed? hm

theorem asks_of_build (ho : i.op ≠ "RAW") (h : i.build = .ok c) : i.Asks c := by
  unfold build at h
  split at h
  case h_1 hop =>
    obtain ⟨n, hn, rfl⟩ := of_required h
    exact ⟨hop, hn⟩
  case h_2 hop =>
    cases h
    exact ⟨hop, rfl⟩
  case h_3 hop =>
    cases hm : i.armMode with
    | error e =>
      rw [hm] at h
      cases h
    | ok mode =>
      rw [hm] at h
      obtain ⟨code, hc, rfl⟩ := of_required (f := arm i.areaOrFirst mode) h
      exact ⟨hop, rfl, of_armMode hm, hc⟩
  case h_4 hop =>
    obtain ⟨code, hc, rfl⟩ := of_required h
    exact ⟨hop, rfl, hc⟩
  case h_5 hop | h_6 hop | h_7 hop | h_8 hop =>
    cases h
    exact ⟨hop, rfl⟩
  case h_9 hop =>
    obtain ⟨n, hn, rfl⟩ := of_required h
    cases hb : i.opened with
    | none => exact ⟨hop, hn, by rw [hb]; simp⟩
    | some b =>
      cases b with
      | false => exact ⟨hop, hn, hb⟩
      | true => exact ⟨hop, hn, by rw [hb]; simp⟩
  case h_10 hop =>
    obtain ⟨state, hs, rfl⟩ := of_required h
    exact ⟨hop, hs⟩
  case h_11 hop | h_12 hop | h_13 hop =>
    cases h
    exact hop
  case h_14 hop => exact absurd hop ho
  case h_15 => cases h

theorem isRaw_of_asks (h : i.Asks c) : c.isRaw = false := by
  cases c with
  | raw text => exact h.elim
  | _ => rfl

theorem not_asks_misread (h : i.Asks c) (hr : ¬ c.InRange) : ¬ i.Asks c.misread := by
  cases c with
  | disarm area code =>
    rintro ⟨-, hf, -⟩
    obtain ⟨-, ha, -⟩ := h
    have hn : ¬ area ≤ 999 := by
      intro hle
      refine hr fun n hn ↦ ?_
      cases hn
      exact hle
    have hlt := (isIndex_firstDigits hn).lt
    rw [hf, ← ha, ← le_999_iff] at hlt
    exact hn hlt
  | _ => exact id

/-- What an instruction asks for is what the panel is told exactly if it names nothing beyond the three
digits of an index. Beyond them the panel is told something that no one asked for. -/
theorem ofText_build_exact (ho : i.op ≠ "RAW") (hb : i.build = .ok c) :
    i.Asks c ∧ (ofText c.text = c ↔ c.InRange) ∧
      (¬ c.InRange → ofText c.text = c.misread ∧ ¬ i.Asks (ofText c.text)) := by
  have ha := asks_of_build ho hb
  refine ⟨ha, ofText_text_iff (isRaw_of_asks ha), fun hr ↦ ?_⟩
  have hm := ofText_text_of_not_inRange hr
  rw [hm]
  exact ⟨rfl, not_asks_misread ha hr⟩

theorem ofText_build_exact_disarm :
    ofText (disarm 999 "1234").text = disarm 999 "1234" ∧
      ofText (disarm 4294967295 "1").text = disarm 429 "49672951" := by
  have h := ofText_build_exact (i := { op := "DISARM", area := some 999, code := some "1234" })
    (c := disarm 999 "1234") (by decide) rfl
  have h' := ofText_build_exact (i := { op := "DISARM", area := some 4294967295, code := some "1" })
    (c := disarm 4294967295 "1") (by decide) rfl
  exact ⟨h.2.1.mpr (by decide), (h'.2.2 (by decide)).1⟩

/-- A text that came in asks to disarm area 1000, and the panel is told to disarm area 100. -/
theorem not_ofText_build_area1000 : ∃ i c,
    ofText? "\x7b\"op\": \"DISARM\", \"area\": 1000, \"code\": \"1234\"\x7d" = some i ∧
      i.op ≠ "RAW" ∧ i.build = .ok c ∧ c = disarm 1000 "1234" ∧ c.text = "AD10001234" ∧
      Command.ofText c.text = disarm 100 "01234" ∧ Command.ofText c.text ≠ c :=
  ⟨{ op := "DISARM", area := some 1000, code := some "1234" }, disarm 1000 "1234", by decide +kernel,
    by decide, rfl, rfl, by decide +kernel, by decide +kernel, by decide +kernel⟩

end Instruction

end AlarmPanel
