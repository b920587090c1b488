import AlarmPanel.Proofs.Device.Serving

namespace AlarmPanel

open AlarmPanel.Frame ScriptedLine

namespace Hearing

variable {h : Hearing} {octets : List UInt8} {sends : Bool}

/-- The octets empty the buffer, because no line ends in them. -/
def Overflows (octets : List UInt8) (h : Hearing) : Prop :=
  octets ≠ [] ∧ h.assembler.capacity < (h.assembler.buffer ++ octets).length ∧
    split? (h.assembler.buffer ++ octets) = none

/-- No failure comes after input, no input overflows the buffer, and none comes after an idle read
if a command follows. -/
def Spares (sends : Bool) (h : Hearing) : Prop :=
  match (burst h.queue).failure with
  | some _ => (burst h.queue).octets = []
  | none => ¬ h.Overflows (burst h.queue).octets ∧
      (sends = true → (burst (burst h.queue).rest).octets = [])

theorem absorb_of_overflows (ho : h.Overflows octets) :
    h.absorb octets = { h with assembler := { h.assembler with buffer := [] } } := by
  rw [absorb, if_neg ho.1, Assembler.push_of_overflow ho.2.2 ho.2.1]
  simp [tellAll, Assembler.takeAll_eq]

theorem absorb_of_not_overflows (ho : ¬ h.Overflows octets) :
    h.absorb octets = { h with
      told := h.told ++ texts (h.assembler.buffer ++ octets)
      assembler := { h.assembler with buffer := remainder (h.assembler.buffer ++ octets) } } := by
  by_cases hn : octets = []
  · simp [absorb, hn, tellAll, Assembler.takeAll_eq]
  · have hp : h.assembler.push octets =
        { h.assembler with buffer := h.assembler.buffer ++ octets } := by
      refine Assembler.push_of_length_le fun hs ↦ Nat.le_of_not_lt fun hl ↦ ?_
      exact ho ⟨hn, hl, hs⟩
    simp [absorb, hn, hp, tellAll, Assembler.takeAll_eq]

/-- A hearing that has told the lines in `done` follows a stream only if nothing of the stream is lost
between the buffer and the unread input. -/
theorem follows_iff_of_done {before told : List String} {done : List UInt8} (a : Assembler)
    (lost : List UInt8) (q : List LineItem) (hd : remainder done = [])
    (ht : told = before ++ texts done) :
    Follows before (done ++ (a.buffer ++ (lost ++ ScriptedLine.octets q))) ⟨told, a, q⟩ ↔
      lost = [] := by
  constructor
  · rintro ⟨done', hs, hd', ht'⟩
    have he : done' = done :=
      done_unique hs.symm hd' hd (List.append_cancel_left (ht'.symm.trans ht))
    rw [he, pending] at hs
    simpa using hs
  · rintro rfl
    exact ⟨done, by rw [List.nil_append, pending], hd, ht⟩

theorem follows_absorb_iff (h : Hearing) (octets lost : List UInt8) (q : List LineItem) :
    Follows h.told (h.assembler.buffer ++ (octets ++ (lost ++ ScriptedLine.octets q)))
        { h.absorb octets with queue := q } ↔ ¬ h.Overflows octets ∧ lost = [] := by
  by_cases ho : h.Overflows octets
  · have hne : ¬ h.assembler.buffer ++ (octets ++ lost) = [] := by simp [ho.1]
    rw [absorb_of_overflows ho]
    have hs : h.assembler.buffer ++ (octets ++ (lost ++ ScriptedLine.octets q)) =
        [] ++ ([] ++ ((h.assembler.buffer ++ (octets ++ lost)) ++ ScriptedLine.octets q)) := by
      simp
    rw [hs]
    have ht : h.told = h.told ++ texts [] := by simp
    have hiff := follows_iff_of_done { h.assembler with buffer := [] }
      (h.assembler.buffer ++ (octets ++ lost)) q remainder_nil ht
    simpa [ho, hne] using hiff
  · obtain ⟨done, hr, hd, ht⟩ := exists_append_remainder (h.assembler.buffer ++ octets)
    rw [absorb_of_not_overflows ho]
    have hs : h.assembler.buffer ++ (octets ++ (lost ++ ScriptedLine.octets q)) =
        done ++ (remainder (h.assembler.buffer ++ octets) ++ (lost ++ ScriptedLine.octets q)) := by
      rw [← List.append_assoc, ← List.append_assoc done, ← hr]
    rw [hs]
    have htold : h.told ++ texts (h.assembler.buffer ++ octets) = h.told ++ texts done := by rw [ht]
    have hiff := follows_iff_of_done
      { h.assembler with buffer := remainder (h.assembler.buffer ++ octets) } lost q hd htold
    simpa [ho] using hiff

theorem follows_approach_iff (h : Hearing) (sends : Bool) :
    (h.approach sends).Follows h.told h.pending ↔ h.Spares sends := by
  have hq := octets_burst h.queue
  have hr := octets_burst (burst h.queue).rest
  cases hf : (burst h.queue).failure with
  | some e =>
    have ha : h.approach sends = { h with queue := (burst h.queue).rest } := by
      simp [approach, drain, hf]
    have hs : h.pending = [] ++ (h.assembler.buffer ++
        ((burst h.queue).octets ++ ScriptedLine.octets (burst h.queue).rest)) := by
      rw [pending, hq, List.nil_append]
    rw [ha, hs, Spares, hf]
    exact follows_iff_of_done h.assembler (burst h.queue).octets (burst h.queue).rest remainder_nil
      (by simp)
  | none =>
    rw [Spares, hf]
    cases sends with
    | false =>
      have ha : h.approach false =
          { h.absorb (burst h.queue).octets with queue := (burst h.queue).rest } := by
        simp [approach, drain, hf, absorb, tellAll]
      rw [ha, pending, hq]
      simpa using follows_absorb_iff h (burst h.queue).octets [] (burst h.queue).rest
    | true =>
      have ha : h.approach true =
          { h.absorb (burst h.queue).octets with queue := (burst (burst h.queue).rest).rest } := by
        simp [approach, drain, hf, absorb, tellAll]
      rw [ha, pending, hq, hr]
      simpa using follows_absorb_iff h (burst h.queue).octets
        (burst (burst h.queue).rest).octets (burst (burst h.queue).rest).rest

end Hearing

namespace Worker

/-- Whether a request loses input before its command is written: every octet at hand is afterwards in a
line told, in the assembler or still unread if the line does not open, or if the request spares its
input, and in no other case. -/
theorem approach_follows_iff (q : Request) (w : Worker ScriptedLine) :
    (stateOf (approach q w)).hearing.Follows w.told w.hearing.pending ↔
      (∃ e w', ensureConnected w = .error e w') ∨ w.hearing.Spares q.command?.isSome := by
  obtain ⟨w', ho | ⟨e, hf⟩⟩ := opens_or_fails w
  · have hn : ¬ ∃ e w', ensureConnected w = .error e w' := by
      rintro ⟨e, w'', he⟩
      rw [ho.ensureConnected] at he
      cases he
    rw [hearing_approach ho.ensureConnected ho.isOpen, ho.hearing, or_iff_right hn]
    exact w.hearing.follows_approach_iff q.command?.isSome
  · have ha : approach q w = .error (.failed e) w' := by
      rw [approach, bind_of_error hf.ensureConnected]
    rw [ha, stateOf, hf.hearing]
    exact iff_of_true w.hearing.follows_pending (.inl ⟨_, _, hf.ensureConnected⟩)

def failing : Worker ScriptedLine where
  receiver := { line := { transport := {
    queue := [.chunk [0x5A, 0x31, 0x0D, 0x0A], .failure (.io "timed out")]
    isOpen := true } } }
  timeout := 100

theorem not_follows_approach_failing : ¬ (stateOf (approach (.query .powerQuery none)
    failing)).hearing.Follows failing.told failing.hearing.pending := by
  rw [hearing_approach (ensureConnected_open rfl) rfl]
  intro hf
  cases (failing.hearing.follows_approach_iff true).mp hf

end Worker

end AlarmPanel
