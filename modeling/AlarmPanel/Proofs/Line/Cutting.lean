import AlarmPanel.Proofs.Line.Exchange

namespace AlarmPanel

structure Cutting (r : List UInt8) where
  chunks : List (List UInt8)
  ne_nil : ∀ c ∈ chunks, c ≠ []
  flatten_eq : chunks.flatten = r

def uptoColon (r : List UInt8) : List UInt8 :=
  r.takeWhile (· != Reply.terminator) ++ [Reply.terminator]

def afterColon (r : List UInt8) : List UInt8 :=
  (r.dropWhile (· != Reply.terminator)).drop 1

theorem exists_dropWhile {α : Type} {p : α → Bool} {l : List α} (h : ∃ a ∈ l, p a = false) :
    ∃ a, p a = false ∧ l.dropWhile p = a :: (l.dropWhile p).drop 1 := by
  induction l with
  | nil =>
    obtain ⟨a, ha, -⟩ := h
    cases ha
  | cons b l ih =>
    cases hb : p b with
    | false => exact ⟨b, hb, by simp [hb]⟩
    | true =>
      obtain ⟨a, ha, hp⟩ := h
      have hl : a ∈ l := by
        rcases List.mem_cons.mp ha with rfl | hl
        · cases hb.symm.trans hp
        · exact hl
      simpa [hb] using ih ⟨a, hl, hp⟩

theorem uptoColon_append_afterColon {r : List UInt8} (h : Reply.terminator ∈ r) :
    uptoColon r ++ afterColon r = r := by
  obtain ⟨x, hx, hd⟩ := exists_dropWhile (p := (· != Reply.terminator)) ⟨_, h, by simp⟩
  obtain rfl : x = Reply.terminator := by simpa using hx
  rw [uptoColon, afterColon, List.append_assoc, List.singleton_append, ← hd,
    List.takeWhile_append_dropWhile]

theorem terminator_notMem_takeWhile (r : List UInt8) :
    Reply.terminator ∉ r.takeWhile (· != Reply.terminator) := by
  intro h
  have := List.all_eq_true.mp List.all_takeWhile _ h
  simp at this

namespace Cutting

variable {r : List UInt8} (k : Cutting r)

def early : List (List UInt8) :=
  k.chunks.takeWhile fun c ↦ !c.contains Reply.terminator

def late : List (List UInt8) :=
  k.chunks.dropWhile fun c ↦ !c.contains Reply.terminator

def taken : List UInt8 :=
  (k.early ++ k.late.take 1).flatten

def left : List (List UInt8) :=
  k.late.drop 1

/-- Some chunk ends right after the first colon. -/
def EndsAtColon : Prop :=
  ∃ before after, k.chunks = before ++ after ∧ before.flatten = uptoColon r

variable {k}

theorem taken_append_left : k.taken ++ k.left.flatten = r := by
  rw [taken, left, ← List.flatten_append, List.append_assoc, List.take_append_drop, early, late,
    List.takeWhile_append_dropWhile, k.flatten_eq]

theorem taken_eq_iff {x y : List UInt8} (h : x ++ y = r) : k.taken = x ↔ k.left.flatten = y := by
  have hall : k.taken ++ k.left.flatten = x ++ y := k.taken_append_left.trans h.symm
  constructor
  · intro hx
    rw [hx] at hall
    exact List.append_cancel_left hall
  · intro hy
    rw [hy] at hall
    exact List.append_cancel_right hall

theorem terminator_notMem_early {c : List UInt8} (hc : c ∈ k.early) : Reply.terminator ∉ c := by
  have h := List.all_eq_true.mp (List.all_takeWhile (l := k.chunks)) c hc
  simpa using h

theorem exists_late (hr : Reply.terminator ∈ r) :
    ∃ last, Reply.terminator ∈ last ∧ k.late = last :: k.left := by
  rw [← k.flatten_eq] at hr
  obtain ⟨c, hc, hm⟩ := List.mem_flatten.mp hr
  obtain ⟨last, hl, hd⟩ := exists_dropWhile (p := fun c ↦ !c.contains Reply.terminator)
    ⟨c, hc, by simpa using hm⟩
  exact ⟨last, by simpa using hl, hd⟩

theorem taken_eq_uptoColon_iff (hr : Reply.terminator ∈ r) :
    k.taken = uptoColon r ↔ k.EndsAtColon := by
  obtain ⟨last, hl, hlate⟩ := k.exists_late hr
  have htake : k.early ++ k.late.take 1 = k.early ++ [last] := by rw [hlate]; rfl
  have hc : (k.early ++ [last]) ++ k.left = k.chunks := by
    rw [← htake, left, List.append_assoc, List.take_append_drop]
    exact List.takeWhile_append_dropWhile
  have ht : k.taken = (k.early ++ [last]).flatten := congrArg List.flatten htake
  refine ⟨fun h ↦ ⟨_, _, hc.symm, ht.symm.trans h⟩, ?_⟩
  rintro ⟨before, after, hb, hu⟩
  have hcolon : Reply.terminator ∈ before.flatten := by rw [hu]; simp [uptoColon]
  rcases List.append_eq_append_iff.mp (hc.trans hb) with ⟨z, rfl, -⟩ | ⟨z, hz, -⟩
  · -- the chunks up to the one with the first colon come first, and nothing follows the colon
    rw [List.flatten_append, ← ht] at hu
    have hm : Reply.terminator ∈ k.taken := by rw [ht]; simp [hl]
    have hn := eq_nil_of_mem hu hm (terminator_notMem_takeWhile r)
    rw [hn, List.append_nil] at hu
    exact hu
  · rcases List.eq_nil_or_concat z with rfl | ⟨z', x, rfl⟩
    · rw [List.append_nil] at hz
      rw [ht, hz, hu]
    · -- the chunks end before the one with the first colon
      rw [List.concat_eq_append, ← List.append_assoc] at hz
      obtain ⟨hz, -⟩ := List.append_inj' hz rfl
      obtain ⟨c, hcb, hm⟩ := List.mem_flatten.mp hcolon
      exact absurd hm (terminator_notMem_early (by rw [hz]; simp [hcb]))

end Cutting

namespace Line

open ScriptedLine

/-- An exchange comes to a reply and leaves octets unread. -/
def Yields (text : String) (timeout : Nat) (l : Line ScriptedLine) (reply : Reply)
    (unread : List UInt8) : Prop :=
  ∃ l', send text timeout l = .ok reply l' ∧ octets l'.transport.queue = unread

/-- Stale input can be dropped, and the next write is answered by the chunks at once. -/
structure Meets {r : List UInt8} (l : Line ScriptedLine) (k : Cutting r) : Prop where
  readable : (burst l.transport.queue).failure = none
  cleared : (burst l.transport.queue).rest = []
  answered : ∃ later, l.transport.replies = .items (k.chunks.map .chunk) :: later

section

variable {text : String} {timeout : Nat} {r : List UInt8} {k k' : Cutting r}
  {l l' : Line ScriptedLine} {reply reply' : Reply} {unread unread' : List UInt8}

theorem Yields.unique (h : Yields text timeout l reply unread)
    (h' : Yields text timeout l reply' unread') : reply = reply' ∧ unread = unread' := by
  obtain ⟨l₁, hs, rfl⟩ := h
  obtain ⟨l₂, hs', rfl⟩ := h'
  cases hs.symm.trans hs'
  exact ⟨rfl, rfl⟩

theorem octets_chunks (cs : List (List UInt8)) : octets (cs.map .chunk) = cs.flatten := by
  induction cs with
  | nil => rfl
  | cons c cs ih => rw [List.map_cons, octets_cons, ih]; rfl

theorem Meets.yields (text : String) (h : l.Meets k) (ht : 0 < timeout)
    (hr : Reply.terminator ∈ r) :
    Yields text timeout l (Reply.classify (Text.Utf8.decode k.taken)) k.left.flatten := by
  obtain ⟨last, hl, hlate⟩ := k.exists_late hr
  obtain ⟨later, hw⟩ := h.answered
  have hc : k.chunks = k.early ++ last :: k.left := by
    rw [← hlate]
    exact List.takeWhile_append_dropWhile.symm
  have hne : ∀ i ∈ k.early.map LineItem.chunk, i.octets ≠ [] := by
    intro i hi
    obtain ⟨c, hce, rfl⟩ := List.mem_map.mp hi
    exact k.ne_nil c (by rw [hc]; simp [hce])
  have hidle : idleReads (k.early.map .chunk) = 0 := by
    rw [idleReads, List.countP_eq_zero]
    intro i hi
    simpa using hne i hi
  have hquiet : ∀ i ∈ k.early.map LineItem.chunk, i.IsQuiet := by
    intro i hi
    obtain ⟨c, hce, rfl⟩ := List.mem_map.mp hi
    exact Cutting.terminator_notMem_early hce
  have hw : l.transport.replies =
      .items (k.early.map .chunk ++ .chunk last :: k.left.map .chunk) :: l.transport.replies.tail := by
    rw [hw, hc, List.map_append, List.map_cons, List.tail_cons]
  have hd : discard l = .ok () (l.withQueue []) := by
    rw [discard_eq, h.readable, h.cleared]
  have hin : idleReads (k.early.map .chunk) * (l.withQueue []).transport.interval < timeout := by
    rw [hidle, Nat.zero_mul]
    exact ht
  have ha := ask_answered (l := l.withQueue []) text rfl hw hquiet hl hin
  have htaken : k.taken = octets (k.early.map .chunk) ++ last := by
    rw [octets_chunks, Cutting.taken, hlate]
    simp
  rw [htaken]
  exact ⟨_, (congrFun (send_eq text timeout) l).trans ((bind_of_ok hd).trans ha), octets_chunks _⟩

/-- However the octets of a reply are cut, what is read up to the end of the chunk with the first colon
is the reply. Two cuttings come to the same exactly if that is the same, and it ends with the colon
exactly if the cutting has a chunk that does. -/
theorem yields_cutting_iff (ht : 0 < timeout) (hr : Reply.terminator ∈ r) (h : l.Meets k)
    (h' : l'.Meets k') :
    Yields text timeout l (Reply.classify (Text.Utf8.decode k.taken)) k.left.flatten ∧
      ((∃ reply unread, Yields text timeout l reply unread ∧ Yields text timeout l' reply unread) ↔
        k.taken = k'.taken) ∧
      (Yields text timeout l (Reply.classify (Text.Utf8.decode (uptoColon r))) (afterColon r) ↔
        k.EndsAtColon) := by
  have hy := h.yields text ht hr
  have hy' := h'.yields text ht hr
  have hboth : k.taken = k'.taken ↔ k.left.flatten = k'.left.flatten :=
    k.taken_eq_iff k'.taken_append_left
  have hcolon : k.taken = uptoColon r ↔ k.left.flatten = afterColon r :=
    k.taken_eq_iff (uptoColon_append_afterColon hr)
  refine ⟨hy, ⟨?_, ?_⟩, ?_, ?_⟩
  · rintro ⟨reply, unread, hu, hu'⟩
    exact hboth.mpr ((hy.unique hu).2.trans (hu'.unique hy').2)
  · intro hk
    refine ⟨_, _, hy, ?_⟩
    rw [hk, hboth.mp hk]
    exact hy'
  · intro hu
    exact (k.taken_eq_uptoColon_iff hr).mp (hcolon.mpr (hy.unique hu).2)
  · intro he
    have hk := (k.taken_eq_uptoColon_iff hr).mpr he
    rw [hk, hcolon.mp hk] at hy
    exact hy

end

def answering {r : List UInt8} (k : Cutting r) : Line ScriptedLine where
  transport := { replies := [.items (k.chunks.map .chunk)] }

theorem meets_answering {r : List UInt8} (k : Cutting r) : (answering k).Meets k :=
  ⟨rfl, rfl, [], rfl⟩

def cutAtColon : Cutting [0x50, 0x3A, 0x5A] where
  chunks := [[0x50, 0x3A], [0x5A]]
  ne_nil := by decide
  flatten_eq := rfl

def oneChunk : Cutting [0x50, 0x3A, 0x5A] where
  chunks := [[0x50, 0x3A, 0x5A]]
  ne_nil := by decide
  flatten_eq := rfl

theorem yields_cutAtColon :
    0 < 1000 ∧ Reply.terminator ∈ [0x50, 0x3A, 0x5A] ∧ (answering cutAtColon).Meets cutAtColon ∧
      (answering oneChunk).Meets oneChunk ∧
      Yields "PWR?" 1000 (answering cutAtColon) (Reply.classify (Text.Utf8.decode [0x50, 0x3A]))
        [0x5A] := by
  refine ⟨by decide, by decide, meets_answering _, meets_answering _, ?_⟩
  refine (yields_cutting_iff (by decide) (by decide) (meets_answering cutAtColon)
    (meets_answering oneChunk)).2.2.mpr ?_
  exact ⟨[[0x50, 0x3A]], [[0x5A]], rfl, by decide⟩

/-- Read in one chunk, what follows the colon is part of the reply. -/
theorem not_yields_oneChunk :
    ¬ ∃ reply unread, Yields "PWR?" 1000 (answering cutAtColon) reply unread ∧
      Yields "PWR?" 1000 (answering oneChunk) reply unread := by
  rintro ⟨reply, unread, hu, hu'⟩
  have ht : 0 < 1000 := by decide
  have hy := (meets_answering cutAtColon).yields "PWR?" ht (by decide)
  have hy' := (meets_answering oneChunk).yields "PWR?" ht (by decide)
  have hleft : cutAtColon.left.flatten = oneChunk.left.flatten :=
    (hy.unique hu).2.trans (hu'.unique hy').2
  exact absurd hleft (by decide)

end Line

end AlarmPanel
