import AlarmPanel.Proofs.Device.Listening

namespace AlarmPanel

open AlarmPanel.Frame

namespace Hearing

variable {h : Hearing} {before : List String} {stream : List UInt8}

def looks : Nat → Hearing → Hearing
  | 0, h => h
  | n + 1, h => looks n h.look

/-- All input is read and no complete line is left to tell. -/
def AtRest (h : Hearing) : Prop :=
  h.queue = [] ∧ split? h.assembler.buffer = none

theorem take?_eq_none_iff {a : Assembler} : a.take? = none ↔ split? a.buffer = none := by
  simp [Assembler.take?]

theorem look_of_atRest (hr : h.AtRest) : h.look = h := by
  have ht := take?_eq_none_iff.mpr hr.2
  unfold look
  split
  case h_1 p hp => rw [ht] at hp; cases hp
  case h_2 => rfl
  case h_3 i q _ hq => rw [hr.1] at hq; cases hq

theorem looks_of_atRest (hr : h.AtRest) (n : Nat) : looks n h = h := by
  induction n with
  | zero => rfl
  | succ n ih => rw [looks, look_of_atRest hr, ih]

theorem looks_add (n m : Nat) (h : Hearing) : looks (n + m) h = looks m (looks n h) := by
  induction n generalizing h with
  | zero => rw [Nat.zero_add]; rfl
  | succ n ih => rw [Nat.succ_add, looks, ih]; rfl

/-- What a look makes less of: reads to come, octets to read and octets in the buffer. -/
def weight (h : Hearing) : Nat :=
  h.queue.length + (ScriptedLine.octets h.queue).length + h.assembler.buffer.length

theorem length_take? {a a' : Assembler} {text : String} (ht : a.take? = some (text, a')) :
    a'.buffer.length < a.buffer.length := by
  obtain ⟨p, hp, he⟩ := Option.map_eq_some_iff.mp ht
  obtain ⟨-, rfl⟩ := Prod.mk.inj he
  have := congrArg List.length (eq_append_of_split?_some hp)
  simp only [List.length_append, lineEnd, List.length_cons] at this
  simp only
  omega

theorem length_buffer_tell (h : Hearing) :
    h.tell.assembler.buffer.length ≤ h.assembler.buffer.length := by
  unfold tell
  split
  case h_1 text a ht => exact Nat.le_of_lt (length_take? ht)
  case h_2 => exact Nat.le_refl _

theorem length_buffer_push (a : Assembler) (octets : List UInt8) :
    (a.push octets).buffer.length ≤ a.buffer.length + octets.length := by
  unfold Assembler.push Assembler.settle
  split <;> simp

theorem weight_look (hr : ¬ h.AtRest) : h.look.weight < h.weight := by
  unfold look
  split
  case h_1 p hp =>
    have := length_take? hp
    simp only [tell, hp, weight]
    omega
  case h_2 ht hq => exact absurd ⟨hq, take?_eq_none_iff.mp ht⟩ hr
  case h_3 i q ht hq =>
    have hw : h.weight = q.length + 1 + (i.octets.length + (ScriptedLine.octets q).length) +
        h.assembler.buffer.length := by
      simp [weight, hq]
    rw [hw]
    split
    · simp only [weight]
      omega
    · have hp := length_buffer_push h.assembler i.octets
      have ht := length_buffer_tell { h with queue := q, assembler := h.assembler.push i.octets }
      simp only [weight, queue_tell]
      simp only at ht
      omega

theorem exists_rest (h : Hearing) : ∃ n, (looks n h).AtRest := by
  induction hw : h.weight using Nat.strongRecOn generalizing h with
  | ind w ih =>
    by_cases hr : h.AtRest
    · exact ⟨0, hr⟩
    · obtain ⟨n, hn⟩ := ih _ (hw ▸ weight_look hr) h.look rfl
      exact ⟨n + 1, hn⟩

theorem Follows.looks (hf : h.Follows before stream) (hc : Fits h.assembler.capacity stream)
    (n : Nat) : (Hearing.looks n h).Follows before stream := by
  induction n generalizing h with
  | zero => exact hf
  | succ n ih => exact ih (hf.look hc) (h.capacity_look ▸ hc)

theorem Follows.told_of_atRest (hf : h.Follows before stream) (hr : h.AtRest) :
    h.told = before ++ texts stream := by
  obtain ⟨done, hs, hd, ht⟩ := hf
  rw [ht, hs, pending, hr.1, ScriptedLine.octets_nil, List.append_nil,
    texts_append_of_remainder_nil hd, split?_eq_none_iff_texts.mp hr.2, List.append_nil]

/-- From some look on, the lines told are all lines of the stream. -/
theorem Follows.eventually_told (hf : h.Follows before stream)
    (hc : Fits h.assembler.capacity stream) :
    ∃ n, ∀ m, n ≤ m → (Hearing.looks m h).told = before ++ texts stream := by
  obtain ⟨n, hr⟩ := h.exists_rest
  refine ⟨n, fun m hm ↦ ?_⟩
  obtain ⟨k, rfl⟩ := Nat.exists_eq_add_of_le hm
  rw [looks_add, looks_of_atRest hr]
  exact (hf.looks hc n).told_of_atRest hr

end Hearing

namespace Worker

variable {w : Worker ScriptedLine}

def listens : Nat → Worker ScriptedLine → Worker ScriptedLine
  | 0, w => w
  | n + 1, w => listens n (stateOf (listen w))

theorem hearing_listens (h : w.transport.isOpen = true) (n : Nat) :
    (listens n w).hearing = w.hearing.looks n := by
  induction n generalizing w with
  | zero => rfl
  | succ n ih =>
    rw [listens, ih (isOpen_listen h), hearing_listen_of_ok (ensureConnected_open h)]
    rfl

end Worker

end AlarmPanel
