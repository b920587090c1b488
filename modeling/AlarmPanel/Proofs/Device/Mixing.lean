import AlarmPanel.Proofs.Device.Rest
import AlarmPanel.Proofs.Device.Serving
import AlarmPanel.Proofs.Frame.Trace

namespace AlarmPanel

open AlarmPanel.Frame

/-- What the panel prints without a break: octets of a reply, or a line. -/
inductive Piece where
  | reply (octets : List UInt8)
  | line (octets : List UInt8)
  deriving DecidableEq

namespace Piece

def octets : Piece → List UInt8
  | reply o => o
  | line o => o ++ lineEnd

def ofReply : Piece → List UInt8
  | reply o => o
  | line _ => []

def ofLine : Piece → List UInt8
  | reply _ => []
  | line o => o ++ lineEnd

def isLine : Piece → Bool
  | reply _ => false
  | line _ => true

/-- No line feed but the one that ends a line, and lines in ASCII. -/
def IsPlain : Piece → Prop
  | reply o => 0x0A ∉ o ∧ o ≠ []
  | line o => 0x0A ∉ o ∧ ∀ b ∈ o, b < 0x80

def replyOf (ps : List Piece) : List UInt8 :=
  ps.flatMap ofReply

def linesOf (ps : List Piece) : List UInt8 :=
  ps.flatMap ofLine

variable {ps qs : List Piece} {c u : List UInt8}

@[simp] theorem replyOf_append (ps qs : List Piece) : replyOf (ps ++ qs) = replyOf ps ++ replyOf qs :=
  List.flatMap_append

@[simp] theorem linesOf_append (ps qs : List Piece) : linesOf (ps ++ qs) = linesOf ps ++ linesOf qs :=
  List.flatMap_append

theorem octets_of_no_line (h : ∀ p ∈ ps, p.isLine = false) :
    replyOf ps = ps.flatMap octets ∧ linesOf ps = [] := by
  induction ps with
  | nil => exact ⟨rfl, rfl⟩
  | cons p ps ih =>
    obtain ⟨hr, hl⟩ := ih fun p hp ↦ h p (List.mem_cons_of_mem _ hp)
    cases p with
    | line o => cases h (line o) List.mem_cons_self
    | reply o => exact ⟨congrArg (o ++ ·) hr, hl⟩

theorem octets_of_lines (h : ∀ p ∈ ps, p.isLine = true) :
    linesOf ps = ps.flatMap octets ∧ replyOf ps = [] := by
  induction ps with
  | nil => exact ⟨rfl, rfl⟩
  | cons p ps ih =>
    obtain ⟨hl, hr⟩ := ih fun p hp ↦ h p (List.mem_cons_of_mem _ hp)
    cases p with
    | reply o => cases h (reply o) List.mem_cons_self
    | line o => exact ⟨congrArg ((o ++ lineEnd) ++ ·) hl, hr⟩

theorem isLine_of_replyOf_nil (hp : ∀ p ∈ ps, p.IsPlain) (h : replyOf ps = []) :
    ∀ p ∈ ps, p.isLine = true := by
  intro p hps
  cases p with
  | line o => rfl
  | reply o => exact absurd (List.flatMap_eq_nil_iff.mp h _ hps) (hp _ hps).2

theorem count_octets (h : ∀ p ∈ ps, p.IsPlain) :
    (ps.flatMap octets).count 0x0A = ps.countP isLine := by
  induction ps with
  | nil => rfl
  | cons p ps ih =>
    have hp := h p List.mem_cons_self
    rw [List.flatMap_cons, List.count_append, ih fun p hp ↦ h p (List.mem_cons_of_mem _ hp)]
    cases p with
    | reply o =>
      have ho : o.count 0x0A = 0 := List.count_eq_zero.mpr hp.1
      simp [octets, ho, isLine]
    | line o =>
      have ho : o.count 0x0A = 0 := List.count_eq_zero.mpr hp.1
      simp [octets, ho, isLine, lineEnd, List.countP_cons]
      omega

theorem length_texts_linesOf (x : List UInt8) (ps : List Piece) :
    (texts x).length + ps.countP isLine ≤ (texts (x ++ linesOf ps)).length := by
  induction ps generalizing x with
  | nil => simp [linesOf]
  | cons p ps ih =>
    cases p with
    | reply o => simpa [linesOf, ofLine, isLine] using ih x
    | line o =>
      have hs : x ++ linesOf (line o :: ps) = (x ++ o) ++ (lineEnd ++ linesOf ps) := by
        simp [linesOf, ofLine]
      have hx : (texts x).length ≤ (texts (x ++ o)).length := by
        rw [texts_append x o]; simp
      have hps := ih []
      rw [hs, texts_append_lineEnd]
      simp only [texts_nil, List.length_nil, List.nil_append] at hps
      simp [isLine, List.countP_cons]
      omega

/-- A stream of pieces is cut after its last piece or somewhere before the end of a piece. -/
theorem exists_cut (h : c ++ u = ps.flatMap octets) :
    (c = ps.flatMap octets ∧ u = []) ∨ ∃ as q bs x y, ps = as ++ q :: bs ∧
      c = as.flatMap octets ++ x ∧ q.octets = x ++ y ∧ y ≠ [] ∧ u = y ++ bs.flatMap octets := by
  induction ps generalizing c with
  | nil => exact .inl (List.append_eq_nil_iff.mp h)
  | cons q ps ih =>
    -- the cut falls after the first piece, or within it
    have later (z : List UInt8) (hz : z ++ u = ps.flatMap octets) (hc : c = q.octets ++ z) :
        (c = (q :: ps).flatMap octets ∧ u = []) ∨ ∃ as q' bs x y, q :: ps = as ++ q' :: bs ∧
          c = as.flatMap octets ++ x ∧ q'.octets = x ++ y ∧ y ≠ [] ∧ u = y ++ bs.flatMap octets := by
      obtain ⟨rfl, hu⟩ | ⟨as, q', bs, x, y, rfl, rfl, hq, hy, hu⟩ := ih hz
      · exact .inl ⟨hc, hu⟩
      · exact .inr ⟨q :: as, q', bs, x, y, rfl, by rw [hc, List.flatMap_cons, List.append_assoc],
          hq, hy, hu⟩
    rcases List.append_eq_append_iff.mp h with ⟨z, hq, hu⟩ | ⟨z, hc, hz⟩
    · by_cases hn : z = []
      · subst hn
        exact later [] hu (by rw [hq, List.append_nil, List.append_nil])
      · exact .inr ⟨[], q, ps, c, z, rfl, rfl, hq, hn, hu⟩
    · exact later z hz.symm hc

/-- Counting lines: if the part after a cut makes as many lines as all pieces print, then no line is
printed before the piece that is cut. -/
theorem no_line_before_cut {as bs : List Piece} {q : Piece} {b x y : List UInt8}
    (hp : ∀ p ∈ as ++ q :: bs, p.IsPlain) (hb : split? b = none) (hc : q.octets = x ++ y)
    (h : texts (b ++ (y ++ bs.flatMap octets)) = texts (b ++ linesOf (as ++ q :: bs))) :
    ∀ p ∈ as, p.isLine = false := by
  have hall : ∀ p ∈ q :: bs, p.IsPlain := fun p hq ↦ hp p (List.mem_append_right as hq)
  have hcount := count_octets hall
  have hle := length_texts_append_le b (y ++ bs.flatMap octets)
  have hge := length_texts_linesOf b (as ++ q :: bs)
  rw [split?_eq_none_iff_texts.mp hb, List.length_nil, Nat.zero_add] at hle hge
  rw [List.flatMap_cons, hc, List.append_assoc, List.count_append] at hcount
  rw [← h, List.countP_append] at hge
  have hz : as.countP isLine = 0 := by omega
  simpa using List.countP_eq_zero.mp hz

theorem texts_line_cut_ne {as bs : List Piece} {o b x y : List UInt8} (ha : ∀ p ∈ as, p.isLine = false)
    (ho : (line o).IsPlain) (hbs : ∀ p ∈ bs, p.IsPlain) (hb : split? b = none)
    (hc : (line o).octets = x ++ y) (hx : x ≠ []) :
    texts (b ++ (y ++ bs.flatMap octets)) ≠ texts (b ++ linesOf (as ++ line o :: bs)) := by
  have hl : linesOf (as ++ line o :: bs) = o ++ (lineEnd ++ linesOf bs) := by
    rw [linesOf_append, (octets_of_no_line ha).2]
    exact List.append_assoc _ _ _
  have hcount : (bs.flatMap octets).count 0x0A ≤ (texts (linesOf bs)).length := by
    have h := length_texts_linesOf [] bs
    rw [texts_nil, List.length_nil, Nat.zero_add, List.nil_append] at h
    rwa [count_octets hbs]
  rw [hl]
  exact texts_cut_ne hb ho.1 ho.2 hc hx hcount

end Piece

/-- What the panel prints after a command, and the reads that bring it, up to the first colon and after
it. -/
structure Placement where
  pieces : List Piece
  early : List LineItem
  last : List UInt8
  rest : List LineItem
  octets_eq : (ScriptedLine.octets early ++ last) ++ ScriptedLine.octets rest =
    pieces.flatMap Piece.octets
  early_quiet : ∀ i ∈ early, i.IsQuiet
  last_ends : Reply.terminator ∈ last

namespace Placement

variable (p : Placement)

def items : List LineItem :=
  p.early ++ .chunk p.last :: p.rest

def reply : List UInt8 :=
  Piece.replyOf p.pieces

def lines : List UInt8 :=
  Piece.linesOf p.pieces

/-- What is read up to the first colon is the reply, and only lines come after it. -/
def RepliesAlone : Prop :=
  ∃ rs ls, p.pieces = rs ++ ls ∧ (∀ q ∈ rs, q.isLine = false) ∧ (∀ q ∈ ls, q.isLine = true) ∧
    ScriptedLine.octets p.early ++ p.last = rs.flatMap Piece.octets

def IsPlain : Prop :=
  (∀ q ∈ p.pieces, q.IsPlain) ∧
    ∃ r, p.reply = r ++ [Reply.terminator] ∧ Reply.terminator ∉ r

/-- The answer is the panel's reply alone, and from some look on exactly the lines of the input at hand
and of the placement are told, in order. -/
def Undisturbed (c : Command) (q : Request) (w : Worker ScriptedLine) : Prop :=
  ∃ w', Worker.serve q w =
      Worker.ofAnswer (q.answer c (Reply.classify (Text.Utf8.decode p.reply))) w' ∧
    ∃ n, ∀ m, n ≤ m →
      (Worker.listens m w').told = w.told ++ texts (w.hearing.pending ++ p.lines)

variable {p} {c : Command} {q : Request} {w : Worker ScriptedLine} {b : List UInt8}

theorem octets_of_repliesAlone (ha : p.RepliesAlone) :
    ScriptedLine.octets p.early ++ p.last = p.reply ∧ ScriptedLine.octets p.rest = p.lines := by
  obtain ⟨rs, ls, hp, hr, hl, hread⟩ := ha
  obtain ⟨hr₁, hr₂⟩ := Piece.octets_of_no_line hr
  obtain ⟨hl₁, hl₂⟩ := Piece.octets_of_lines hl
  have he := p.octets_eq
  rw [hread, hp, List.flatMap_append] at he
  rw [reply, lines, hp, Piece.replyOf_append, Piece.linesOf_append, hr₁, hr₂, hl₁, hl₂,
    List.append_nil, List.nil_append]
  exact ⟨hread, List.append_cancel_left he⟩

theorem repliesAlone_of_texts (hpl : p.IsPlain) (hb : split? b = none)
    (h : texts (b ++ ScriptedLine.octets p.rest) = texts (b ++ p.lines)) : p.RepliesAlone := by
  obtain ⟨hps, r, hr, hnr⟩ := hpl
  have hmem : Reply.terminator ∈ ScriptedLine.octets p.early ++ p.last :=
    List.mem_append_right _ p.last_ends
  obtain ⟨hread, hrest⟩ | ⟨as, q, bs, x, y, he, hread, hq, hy, hrest⟩ := Piece.exists_cut p.octets_eq
  · have hlines := Piece.length_texts_linesOf b p.pieces
    rw [← lines, ← h, hrest, List.append_nil] at hlines
    have hz : p.pieces.countP Piece.isLine = 0 := by omega
    refine ⟨p.pieces, [], (List.append_nil _).symm, ?_, by simp, hread⟩
    simpa using List.countP_eq_zero.mp hz
  · rw [hrest, lines, he] at h
    rw [he] at hps
    have has := Piece.no_line_before_cut hps hb hq h
    have hpb : ∀ q ∈ bs, q.IsPlain := fun q hq ↦ hps q (by simp [hq])
    rw [reply, he, Piece.replyOf_append, (Piece.octets_of_no_line has).1] at hr
    cases q with
    | reply o =>
      -- the colon that was read would not be the last octet of the reply
      have hc : (ScriptedLine.octets p.early ++ p.last) ++ (y ++ Piece.replyOf bs) =
          r ++ [Reply.terminator] := by
        rw [← hr, hread, List.append_assoc, ← List.append_assoc x, ← hq]
        rfl
      exact absurd (List.append_eq_nil_iff.mp (eq_nil_of_mem hc hmem hnr)).1 hy
    | line o =>
      by_cases hx : x = []
      · rw [hx, List.append_nil] at hread
        have hbs := Piece.isLine_of_replyOf_nil hpb (eq_nil_of_mem hr (hread ▸ hmem) hnr)
        refine ⟨as, .line o :: bs, he, has, ?_, hread⟩
        intro q hq
        rcases List.mem_cons.mp hq with rfl | hq
        · rfl
        · exact hbs q hq
      · exact absurd h (Piece.texts_line_cut_ne has (hps _ (by simp)) hpb hb hq hx)

section

variable (hc : q.command? = some c) (ho : ∀ r ∈ w.transport.connects, r = .ok ())
  (hq : ∀ i ∈ w.transport.queue, i.IsChunk)
  (hr : w.transport.replies = .items p.items :: w.transport.replies.tail)
  (ht : ScriptedLine.idleReads p.early * w.transport.interval < q.patience w.timeout)
  (hfit : Fits w.receiver.assembler.capacity (w.hearing.pending ++ ScriptedLine.octets p.rest))

include hc ho hq hr ht hfit

theorem serve_placement : ∃ w', Worker.serve q w = Worker.ofAnswer (q.answer c (Reply.classify
      (Text.Utf8.decode (ScriptedLine.octets p.early ++ p.last)))) w' ∧
    ∃ n, ∀ m, n ≤ m → (Worker.listens m w').told =
      w.told ++ texts (w.hearing.pending ++ ScriptedLine.octets p.rest) := by
  obtain ⟨w₁, ho⟩ := Worker.exists_opens ho
  have hn : w.transport.queue = w.transport.queue ++ [] := (List.append_nil _).symm
  obtain ⟨w', -, hop, hh, hsv⟩ :=
    Worker.serve_answered hc ho hn hq (.inl rfl) hr p.early_quiet p.last_ends ht
  have hfeed : w'.hearing = w.hearing.drain.feed p.rest := by
    have hd : w.hearing.drain.queue = [] := Hearing.queue_drain hq
    rw [hh, Hearing.feed, hd]
    rfl
  have hf := (w.hearing.follows_pending.drain hfit.of_append hq).feed p.rest
  have hcap : w'.hearing.assembler.capacity = w.receiver.assembler.capacity := by
    rw [hfeed]
    exact w.hearing.capacity_drain
  rw [← hfeed] at hf
  obtain ⟨n, hn⟩ := hf.eventually_told (hcap ▸ hfit)
  refine ⟨w', hsv, n, fun m hm ↦ ?_⟩
  have hm' := hn m hm
  rw [← Worker.hearing_listens hop] at hm'
  exact hm'

theorem undisturbed_of_repliesAlone (ha : p.RepliesAlone) : p.Undisturbed c q w := by
  obtain ⟨w', hsv, hn⟩ := serve_placement hc ho hq hr ht hfit
  obtain ⟨hread, hrest⟩ := octets_of_repliesAlone ha
  rw [hread] at hsv
  rw [hrest] at hn
  exact ⟨w', hsv, hn⟩

theorem repliesAlone_of_undisturbed (hpl : p.IsPlain) (hu : p.Undisturbed c q w) :
    p.RepliesAlone := by
  obtain ⟨w', hsv, n, hn⟩ := serve_placement hc ho hq hr ht hfit
  obtain ⟨w'', hsv', n', hn'⟩ := hu
  obtain rfl : w' = w'' := by
    have := congrArg stateOf (hsv.symm.trans hsv')
    rwa [Worker.stateOf_ofAnswer, Worker.stateOf_ofAnswer] at this
  have htold := (hn (max n n') (Nat.le_max_left _ _)).symm.trans
    (hn' (max n n') (Nat.le_max_right _ _))
  have htexts := List.append_cancel_left htold
  rw [texts_append _ (ScriptedLine.octets p.rest), texts_append _ p.lines] at htexts
  exact repliesAlone_of_texts hpl (split?_remainder _) (List.append_cancel_left htexts)

/-- Lines that the panel prints while a command waits for its reply leave the answer alone and are all
told exactly if the read that brings the first colon ends the reply, with no line before it. -/
theorem undisturbed_iff_repliesAlone (hpl : p.IsPlain) : p.Undisturbed c q w ↔ p.RepliesAlone :=
  ⟨repliesAlone_of_undisturbed hc ho hq hr ht hfit hpl,
    undisturbed_of_repliesAlone hc ho hq hr ht hfit⟩

end

def met (p : Placement) : Worker ScriptedLine where
  receiver := { line := { transport := { replies := [.items p.items] } } }
  timeout := 1000

def lineAfter : Placement where
  pieces := [.reply [0x50], .reply [0x3D, 0x31, 0x3A], .line [0x5A, 0x31]]
  early := [.chunk [0x50], .idle]
  last := [0x3D, 0x31, 0x3A]
  rest := [.chunk [0x5A], .chunk [0x31, 0x0D, 0x0A]]
  octets_eq := by decide
  early_quiet := by decide
  last_ends := by decide

theorem undisturbed_lineAfter :
    lineAfter.Undisturbed .powerQuery (.query .powerQuery none) lineAfter.met := by
  refine (undisturbed_iff_repliesAlone rfl ?_ ?_ rfl ?_ ?_ ?_).mpr ?_
  · simp [met, Worker.transport]
  · simp [met, Worker.transport]
  · decide
  · decide
  · exact ⟨by simp [lineAfter, Piece.IsPlain], [0x50, 0x3D, 0x31], by decide, by decide⟩
  · exact ⟨[.reply [0x50], .reply [0x3D, 0x31, 0x3A]], [.line [0x5A, 0x31]], by decide, by decide,
      by decide, by decide⟩

def lineBefore : Placement where
  pieces := [.line [0x5A, 0x3A], .reply [0x31, 0x3A]]
  early := []
  last := [0x5A, 0x3A, 0x0D, 0x0A]
  rest := [.chunk [0x31, 0x3A]]
  octets_eq := by decide
  early_quiet := by decide
  last_ends := by decide

theorem not_undisturbed_lineBefore :
    ¬ lineBefore.Undisturbed .powerQuery (.query .powerQuery none) lineBefore.met := by
  intro hu
  have ha : lineBefore.RepliesAlone := by
    refine repliesAlone_of_undisturbed rfl ?_ ?_ rfl ?_ ?_ ?_ hu
    · simp [met, Worker.transport]
    · simp [met, Worker.transport]
    · decide
    · decide
    · exact ⟨by simp [lineBefore, Piece.IsPlain], [0x31], by decide, by decide⟩
  exact absurd (octets_of_repliesAlone ha).1 (by decide)

end Placement

end AlarmPanel
