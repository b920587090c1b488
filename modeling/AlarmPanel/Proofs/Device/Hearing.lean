import AlarmPanel.Proofs.Frame.Split
import AlarmPanel.Proofs.Line.Script

namespace AlarmPanel

open AlarmPanel.Frame

structure Hearing where
  told : List String
  assembler : Assembler
  queue : List LineItem

namespace Hearing

variable {h : Hearing} {before : List String} {stream : List UInt8}

/-- The octets that are not told yet. -/
def pending (h : Hearing) : List UInt8 :=
  h.assembler.buffer ++ ScriptedLine.octets h.queue

def feed (q : List LineItem) (h : Hearing) : Hearing :=
  { h with queue := h.queue ++ q }

def tell (h : Hearing) : Hearing :=
  match h.assembler.take? with
  | some (text, a) => { h with told := h.told ++ [text], assembler := a }
  | none => h

/-- Tells a line that is complete, or else one that the next read completes. -/
def look (h : Hearing) : Hearing :=
  match h.assembler.take?, h.queue with
  | some _, _ => h.tell
  | none, [] => h
  | none, i :: q =>
    if i.octets = [] then { h with queue := q }
    else tell { h with queue := q, assembler := h.assembler.push i.octets }

def tellAll (h : Hearing) : Hearing :=
  { h with told := h.told ++ h.assembler.takeAll.1, assembler := h.assembler.takeAll.2 }

def absorb (octets : List UInt8) (h : Hearing) : Hearing :=
  tellAll { h with assembler := if octets = [] then h.assembler else h.assembler.push octets }

/-- Absorbs a burst of input; the input before a failure goes nowhere. -/
def drain (h : Hearing) : Hearing :=
  let b := ScriptedLine.burst h.queue
  match b.failure with
  | some _ => { h with queue := b.rest }
  | none => absorb b.octets { h with queue := b.rest }

/-- Drains, and drops what comes after an idle read if a command follows. -/
def approach (sends : Bool) (h : Hearing) : Hearing :=
  if (ScriptedLine.burst h.queue).failure = none ∧ sends = true then
    { h.drain with queue := (ScriptedLine.burst h.drain.queue).rest }
  else h.drain

/-- After the lines in `before`, the hearing has told the complete lines at the front of the stream;
the rest of the stream is pending. -/
def Follows (before : List String) (stream : List UInt8) (h : Hearing) : Prop :=
  ∃ done, stream = done ++ h.pending ∧ remainder done = [] ∧ h.told = before ++ texts done

theorem follows_pending (h : Hearing) : h.Follows h.told h.pending :=
  ⟨[], rfl, rfl, by simp⟩

theorem Follows.read (hf : h.Follows before stream) :
    ∃ read, stream = read ++ ScriptedLine.octets h.queue ∧
      h.told ++ texts h.assembler.buffer = before ++ texts read := by
  obtain ⟨done, hs, hd, ht⟩ := hf
  refine ⟨done ++ h.assembler.buffer, ?_, ?_⟩
  · rw [hs, pending, List.append_assoc]
  · rw [ht, texts_append_of_remainder_nil hd, List.append_assoc]

theorem Follows.feed (hf : h.Follows before stream) (q : List LineItem) :
    (h.feed q).Follows before (stream ++ ScriptedLine.octets q) := by
  obtain ⟨done, hs, hd, ht⟩ := hf
  refine ⟨done, ?_, hd, ht⟩
  rw [hs]
  simp only [pending, Hearing.feed, ScriptedLine.octets_append, List.append_assoc]

theorem Follows.fits_pending {capacity : Nat} (hf : h.Follows before stream)
    (hc : Fits capacity stream) : Fits capacity h.pending := by
  obtain ⟨done, hs, hd, -⟩ := hf
  rw [hs] at hc
  exact hc.of_remainder_nil hd

theorem Follows.tell (hf : h.Follows before stream) : h.tell.Follows before stream := by
  unfold Hearing.tell Assembler.take?
  cases hb : split? h.assembler.buffer with
  | none => exact hf
  | some p =>
    obtain ⟨done, hs, hd, ht⟩ := hf
    have hn := split?_fst hb
    have he := eq_append_of_split?_some hb
    refine ⟨done ++ (p.1 ++ lineEnd), ?_, ?_, ?_⟩
    · rw [hs, pending, he]
      simp [pending]
    · rw [remainder_append_of_remainder_nil hd, ← List.append_nil lineEnd, remainder_append_lineEnd]
      rfl
    · have htext : texts (p.1 ++ lineEnd) = [text p.1] := by
        rw [← List.append_nil lineEnd, texts_append_lineEnd, split?_eq_none_iff_texts.mp hn,
          remainder_of_split?_none hn]
        rfl
      rw [texts_append_of_remainder_nil hd, htext, ← List.append_assoc, ← ht]
      rfl

theorem Follows.push {i : LineItem} {q : List LineItem} (hq : h.queue = i :: q)
    (hf : h.Follows before stream) (hc : Fits h.assembler.capacity stream) :
    Follows before stream { h with queue := q, assembler := h.assembler.push i.octets } := by
  have hp := hf.fits_pending hc
  rw [pending, hq, ScriptedLine.octets_cons] at hp
  obtain ⟨done, hs, hd, ht⟩ := hf
  refine ⟨done, ?_, hd, ht⟩
  rw [hs, pending, pending, hq, Assembler.push_of_fits hp, ScriptedLine.octets_cons,
    List.append_assoc]

theorem Follows.look (hf : h.Follows before stream) (hc : Fits h.assembler.capacity stream) :
    h.look.Follows before stream := by
  unfold Hearing.look
  split
  case h_1 => exact hf.tell
  case h_2 => exact hf
  case h_3 i q hn hq =>
    split
    case isTrue ho =>
      obtain ⟨done, hs, hd, ht⟩ := hf
      refine ⟨done, ?_, hd, ht⟩
      rw [hs, pending, hq, ScriptedLine.octets_cons, ho]
      rfl
    case isFalse ho => exact (hf.push hq hc).tell

theorem Follows.tellAll (hf : h.Follows before stream) : h.tellAll.Follows before stream := by
  obtain ⟨done, hs, hd, ht⟩ := hf
  obtain ⟨lines, hl, hr, he⟩ := exists_append_remainder h.assembler.buffer
  refine ⟨done ++ lines, ?_, ?_, ?_⟩
  · rw [hs, pending, pending, hl]
    simp only [Hearing.tellAll, Assembler.takeAll_eq, List.append_assoc]
  · rw [remainder_append_of_remainder_nil hd, hr]
  · rw [texts_append_of_remainder_nil hd, he, ← List.append_assoc, ← ht]
    rfl

theorem drain_chunks (hq : ∀ i ∈ h.queue, i.IsChunk) :
    h.drain = absorb (ScriptedLine.octets h.queue) { h with queue := [] } := by
  simp only [drain, ScriptedLine.burst_chunks hq]

theorem Follows.drain (hf : h.Follows before stream) (hc : Fits h.assembler.capacity stream)
    (hq : ∀ i ∈ h.queue, i.IsChunk) : h.drain.Follows before stream := by
  rw [drain_chunks hq]
  refine Follows.tellAll ?_
  have hp := hf.fits_pending hc
  obtain ⟨done, hs, hd, ht⟩ := hf
  refine ⟨done, ?_, hd, ht⟩
  rw [hs, pending, pending]
  split
  case isTrue ho => rw [ho]; rfl
  case isFalse ho =>
    rw [pending, ← List.append_nil (ScriptedLine.octets h.queue)] at hp
    rw [Assembler.push_of_fits hp]
    simp

theorem queue_drain (hq : ∀ i ∈ h.queue, i.IsChunk) : h.drain.queue = [] := by
  rw [drain_chunks hq]
  rfl

@[simp] theorem capacity_tell (h : Hearing) : h.tell.assembler.capacity = h.assembler.capacity := by
  unfold tell Assembler.take?
  cases split? h.assembler.buffer <;> rfl

theorem capacity_look (h : Hearing) : h.look.assembler.capacity = h.assembler.capacity := by
  unfold look
  split
  · simp
  · rfl
  · split
    · rfl
    · simp [Assembler.capacity_push]

theorem capacity_absorb (octets : List UInt8) (h : Hearing) :
    (h.absorb octets).assembler.capacity = h.assembler.capacity := by
  simp only [absorb, tellAll, Assembler.takeAll_eq]
  split
  · rfl
  · exact Assembler.capacity_push _ _

theorem capacity_drain (h : Hearing) : h.drain.assembler.capacity = h.assembler.capacity := by
  simp only [drain]
  split
  · rfl
  · exact capacity_absorb _ _

@[simp] theorem queue_tell (h : Hearing) : h.tell.queue = h.queue := by
  unfold tell
  split <;> rfl

end Hearing

end AlarmPanel
