import AlarmPanel.Proofs.Device.Ledger
import AlarmPanel.Proofs.Text.Decode

namespace AlarmPanel

open AlarmPanel.Frame

theorem Frame.split?_encode {s : List Char} (h : ∀ c ∈ s, c.toNat < 0x80) (hr : '\r' ∉ s) :
    split? (Text.Utf8.encode s) = none := by
  rw [split?_eq_none_iff_not_contains, Text.Utf8.encode_ascii h]
  intro hin
  have hm : (0x0D : UInt8) ∈ s.map fun c ↦ UInt8.ofNat c.toNat := hin.subset (by simp [lineEnd])
  obtain ⟨c, hc, he⟩ := List.mem_map.mp hm
  have hn : c.toNat = 13 := by
    rw [← Text.Utf8.toNat_octet (h c hc), he]
    rfl
  have hcr : c = '\r' := Char.toNat_inj.mp hn
  exact hr (hcr ▸ hc)

namespace Simulator

/-- The panel prints its lines in a circle; this is line `i`. -/
def endless (i : Nat) : String :=
  lines.getD (i % lines.length) ""

def dueLine? (now : Nat) (s : Simulator) : Option String :=
  match s.due with
  | some m => if m ≤ now then some s.nextLine.1 else none
  | none => none

def IsPlain (c : Char) : Prop :=
  c.toNat < 0x80 ∧ c ≠ '\r'

theorem isPlain_of_all {s : List Char}
    (h : s.all (fun c ↦ c.toNat.blt 0x80 && !c.toNat.beq 0x0D) = true) : ∀ c ∈ s, IsPlain c := by
  intro c hc
  have hb := List.all_eq_true.mp h c hc
  rw [Bool.and_eq_true, Nat.blt_eq] at hb
  refine ⟨hb.1, ?_⟩
  intro hr
  rw [hr] at hb
  cases hb.2

theorem lines_plain : ∀ line ∈ lines, ∃ s, line = String.ofList s ∧ ∀ c ∈ s, IsPlain c := by
  simp only [lines, List.forall_mem_cons]
  refine ⟨?_, ?_, ?_, ?_, ?_, ?_, ?_, ?_, ?_, ?_, by simp⟩ <;>
    exact ⟨_, rfl, isPlain_of_all (by decide +kernel)⟩

theorem lines_intact {line : String} (h : line ∈ lines) :
    split? (Text.Utf8.encode line.toList ++ lineEnd) = some (Text.Utf8.encode line.toList, []) ∧
      text (Text.Utf8.encode line.toList) = line := by
  obtain ⟨s, rfl, hs⟩ := lines_plain line h
  rw [String.toList_ofList]
  have hn := split?_encode (fun c hc ↦ (hs c hc).1) fun hr ↦ (hs _ hr).2 rfl
  refine ⟨?_, ?_⟩
  · have := split?_append_lineEnd hn []
    rwa [List.append_nil] at this
  · rw [text, Text.Utf8.decode_encode fun c hc ↦ (hs c hc).1]

theorem endless_mem (i : Nat) : endless i ∈ lines := by
  have hi : i % lines.length < lines.length := Nat.mod_lt _ (by decide)
  rw [endless, List.getD_eq_getElem?_getD, List.getElem?_eq_getElem hi, Option.getD_some]
  exact List.getElem_mem hi

/-- What is on the line when a canned line is printed. -/
def octets (line : String) : List UInt8 :=
  Text.Utf8.encode line.toList ++ lineEnd

theorem octets_ne_nil (line : String) : octets line ≠ [] := by
  simp [octets, lineEnd]

def opened (now : Nat) (s : Simulator) : Simulator :=
  { s with due := some (now + s.delay) }

def printed (now : Nat) (s : Simulator) : Simulator :=
  { s.nextLine.2 with due := some (now + s.delay) }

def attended (now : Nat) (s : Simulator) : Simulator :=
  match s.due with
  | none => s.opened now
  | some m => if m ≤ now then s.printed now else s

variable {s : Simulator} {now m : Nat}

theorem attended_closed (hd : s.due = none) : s.attended now = s.opened now := by
  simp only [attended, hd]

theorem attended_due (hd : s.due = some m) (hm : m ≤ now) : s.attended now = s.printed now := by
  simp only [attended, hd, if_pos hm]

theorem attended_early (hd : s.due = some m) (hm : now < m) : s.attended now = s := by
  simp only [attended, hd, if_neg (Nat.not_le.mpr hm)]

theorem isSome_attended (now : Nat) (s : Simulator) : (s.attended now).due.isSome = true := by
  unfold attended
  split
  case h_1 => rfl
  case h_2 m hd =>
    split
    · rfl
    · rw [hd]
      rfl

theorem dueLine?_attended (hp : 0 < s.delay) (now : Nat) : (s.attended now).dueLine? now = none := by
  have hlater : ¬ now + s.delay ≤ now := Nat.not_le.mpr (Nat.lt_add_of_pos_right hp)
  unfold attended
  cases hd : s.due with
  | none => exact if_neg hlater
  | some m =>
    dsimp only
    split
    case isTrue => exact if_neg hlater
    case isFalse hm =>
      simp only [dueLine?, hd]
      exact if_neg hm

theorem connect_of_closed (hd : s.due = none) : s.connect now = (.ok (), s.opened now) := by
  simp [connect, hd, opened]

theorem read_of_lt (hd : s.due = some m) (hm : now < m) : s.read now = (.ok [], s) := by
  simp [read, hd, hm]

theorem read_of_le (hd : s.due = some m) (hm : m ≤ now) :
    s.read now = (.ok (octets s.nextLine.1), s.printed now) := by
  simp [read, hd, Nat.not_lt.mpr hm, octets, printed, nextLine]

end Simulator

namespace Assembler

open Simulator

variable {line : String}

theorem push_line (h : line ∈ lines) : push {} (octets line) = { buffer := octets line } := by
  refine push_of_length_le ?_
  intro hn
  have hs : split? (octets line) = none := hn
  cases (lines_intact h).1.symm.trans hs

theorem take?_line (h : line ∈ lines) : take? { buffer := octets line } = some (line, {}) := by
  obtain ⟨hs, ht⟩ := lines_intact h
  have hsplit : split? (octets line) = some (Text.Utf8.encode line.toList, []) := hs
  simp [take?, hsplit, ht]

theorem takeAll_line (h : line ∈ lines) : takeAll { buffer := octets line } = ([line], {}) := by
  obtain ⟨hs, ht⟩ := lines_intact h
  have hsplit : split? (octets line) = some (Text.Utf8.encode line.toList, []) := hs
  rw [takeAll_eq, texts_of_split?_some hsplit, remainder_of_split?_some hsplit, ht]
  rfl

end Assembler

namespace Line

open Simulator

variable {l : Line Link} {s : Simulator} {m : Nat}

theorem read_early (hl : l.transport = .simulator s) (hd : s.due = some m) (hm : l.now < m) :
    read l = .ok [] l := by
  have hr : Transport.read l.now l.transport = (.ok [], l.transport) := by
    rw [hl]
    exact congrArg (fun r ↦ (r.1, Link.simulator r.2)) (read_of_lt hd hm)
  exact perform_of_eq hr

theorem read_due (hl : l.transport = .simulator s) (hd : s.due = some m) (hm : m ≤ l.now) :
    read l = .ok (octets s.nextLine.1) { l with transport := .simulator (s.printed l.now) } := by
  have hr : Transport.read l.now l.transport =
      (.ok (octets s.nextLine.1), .simulator (s.printed l.now)) := by
    rw [hl]
    exact congrArg (fun r ↦ (r.1, Link.simulator r.2)) (read_of_le hd hm)
  exact perform_of_eq hr

theorem readAll_early (hl : l.transport = .simulator s) (hd : s.due = some m) (hm : l.now < m) :
    readAll l = .ok [] l := by
  rw [readAll, get_bind, readAllWithin, bind_of_ok (read_early hl hd hm)]
  rfl

theorem readAll_due (hl : l.transport = .simulator s) (hp : 0 < s.delay) (hd : s.due = some m)
    (hm : m ≤ l.now) :
    readAll l = .ok (octets s.nextLine.1) { l with transport := .simulator (s.printed l.now) } := by
  have hb : Transport.backlog l.transport = 1 := by
    rw [hl]
    rfl
  have hnext : read { l with transport := Link.simulator (s.printed l.now) } = .ok [] _ :=
    read_early (s := s.printed l.now) rfl rfl (Nat.lt_add_of_pos_right hp)
  have he : (octets s.nextLine.1).isEmpty = false := by simp [octets_ne_nil]
  rw [readAll, get_bind, hb, readAllWithin, bind_of_ok (read_due hl hd hm), he,
    if_neg Bool.false_ne_true, readAllWithin, bind_of_ok hnext]
  rfl

end Line

namespace Request

/-- How a panel without hardware answers a request. -/
def refusal : Request → PanelError
  | poll (.user n) => .unsupported (Poll.user n).name
  | _ => .notImplemented "send" Interface.simulated.name

theorem refusal_of_command? {q : Request} {c : Command} (h : q.command? = some c) :
    q.refusal = .notImplemented "send" Interface.simulated.name := by
  cases q with
  | query c own => rfl
  | poll p =>
    cases p with
    | user n => cases h
    | areaStatus n | zoneStatus n | zone n | powerState | errorCode | errorMessage => rfl

theorem isConnectionLevel_refusal (q : Request) : q.refusal.isConnectionLevel = false := by
  unfold refusal
  split <;> rfl

theorem perform_refused (q : Request) (timeout : Nat) {l : Line Link} {s : Simulator}
    (hl : l.transport = .simulator s) (hd : s.due.isSome = true) :
    q.perform timeout l = .error (.failed q.refusal) l := by
  cases hq : q.command? with
  | none =>
    cases q with
    | query c own => cases hq
    | poll p =>
      cases p with
      | user n => rfl
      | areaStatus n | zoneStatus n | zone n | powerState | errorCode | errorMessage => cases hq
  | some c =>
    have ho : Line.ensureOpen l = .ok () l := by
      have hopen : Transport.isOpen l.transport = true := by
        rw [hl]
        exact hd
      rw [Line.ensureOpen, get_bind, if_pos hopen]
      rfl
    have hs : (Transport.interface l.transport).supportsCommands = false := by
      rw [hl]
      rfl
    have hsend : Line.send c.text (q.patience timeout) l = .error (.failed q.refusal) l := by
      rw [refusal_of_command? hq, Line.send, get_bind, hs]
      simp only [Bool.false_eq_true, if_false]
      rw [hl]
      rfl
    rw [perform_eq hq, exchange, bind_of_ok ho, bind_of_error hsend]

end Request

namespace Worker

open Simulator

/-- The line is a simulated panel, and nothing was read off it that was not told. -/
structure Shows (s : Simulator) (w : Worker Link) : Prop where
  transport : w.transport = .simulator s
  assembler : w.receiver.assembler = {}

/-- What a request or a look does to the worker. -/
def attend (s : Simulator) (w : Worker Link) : Worker Link :=
  match s.due with
  | none =>
    report { w.withTransport (.simulator (s.opened w.now)) with
      connected := true } .connected
  | some m =>
    if m ≤ w.now then handle s.nextLine.1 (w.withTransport (.simulator (s.printed w.now))) else w

variable {s : Simulator} {w : Worker Link} {m : Nat}

theorem attend_closed (h : s.due = none) :
    attend s w = report { w.withTransport (.simulator (s.opened w.now)) with
      connected := true } .connected := by
  simp only [attend, h]

theorem attend_due (h : s.due = some m) (hm : m ≤ w.now) :
    attend s w = handle s.nextLine.1 (w.withTransport (.simulator (s.printed w.now))) := by
  simp only [attend, h, if_pos hm]

theorem attend_early (h : s.due = some m) (hm : w.now < m) : attend s w = w := by
  simp only [attend, h, if_neg (Nat.not_le.mpr hm)]

theorem ensureConnected_closed (h : w.Shows s) (hd : s.due = none) :
    ensureConnected w = .ok () (attend s w) := by
  have ho : ¬ Transport.isOpen w.transport = true := by
    have hopen : Transport.isOpen w.transport = s.due.isSome := congrArg Transport.isOpen h.transport
    rw [hopen, hd]
    simp
  have hc : Transport.connect w.now w.transport =
      (.ok (), .simulator (s.opened w.now)) := by
    rw [h.transport]
    exact congrArg (fun r ↦ (r.1, Link.simulator r.2)) (connect_of_closed hd)
  have hl : Line.connect w.receiver.line = .ok () { w.receiver.line with
      transport := .simulator (s.opened w.now) } := Line.perform_of_eq hc
  rw [ensureConnected, get_bind, if_neg ho, bind_of_ok (onLine_ok hl), attend_closed hd]
  rfl

theorem ensureConnected_shows (h : w.Shows s) (hd : s.due = some m) :
    ensureConnected w = .ok () w := by
  have ho : Transport.isOpen w.transport = true := by
    have hopen : Transport.isOpen w.transport = s.due.isSome := congrArg Transport.isOpen h.transport
    rw [hopen, hd]
    rfl
  rw [ensureConnected, get_bind, if_pos ho]
  rfl

theorem drain_early (h : w.Shows s) (hd : s.due = some m) (hm : w.now < m) :
    drain w = .ok () w := by
  obtain ⟨⟨line, a⟩, timeout, connected, log⟩ := w
  obtain rfl : a = {} := h.assembler
  rw [drain, bind_of_ok (onLine_ok (Line.readAll_early h.transport hd hm))]
  rfl

theorem tell_line {text : String} (hmem : text ∈ lines) (ha : w.receiver.assembler = {}) :
    (do
      onReceiver (Receiver.push (octets text))
      let lines ← onReceiver Receiver.takeAll
      modify fun w ↦ lines.foldl (fun w text ↦ handle text w) w : WorkerM Link Unit) w =
        .ok () (handle text w) := by
  obtain ⟨⟨line, a⟩, timeout, connected, log⟩ := w
  obtain rfl : a = {} := ha
  have hpush : Receiver.push (octets text) ⟨line, {}⟩ = .ok () ⟨line, { buffer := octets text }⟩ := by
    rw [← Assembler.push_line hmem]
    rfl
  have htake : Receiver.takeAll ⟨line, { buffer := octets text }⟩ = .ok [text] ⟨line, {}⟩ := by
    simp only [Receiver.takeAll, Assembler.takeAll_line hmem]
  rw [bind_of_ok (onReceiver_ok hpush), bind_of_ok (onReceiver_ok htake)]
  rfl

theorem drain_due (h : w.Shows s) (hmem : s.nextLine.1 ∈ lines) (hp : 0 < s.delay)
    (hd : s.due = some m) (hm : m ≤ w.now) : drain w = .ok () (attend s w) := by
  have he : (octets s.nextLine.1).isEmpty = false := by simp [octets_ne_nil]
  rw [drain, bind_of_ok (onLine_ok (Line.readAll_due h.transport hp hd hm)), attend_due hd hm]
  simp only [he, Bool.false_eq_true, if_false]
  exact tell_line hmem h.assembler

theorem refuses (h : w.Shows s) (hd : s.due.isSome = true) (q : Request) :
    guarded (onLine (q.perform w.timeout)) w = .error (.failed q.refusal) w := by
  have hl := q.perform_refused w.timeout h.transport hd
  rw [guarded_failed (onLine_error hl), q.isConnectionLevel_refusal]
  rfl

theorem Shows.attend (h : w.Shows s) : (attend s w).Shows (s.attended w.now) := by
  unfold Worker.attend Simulator.attended
  cases hd : s.due with
  | none => exact ⟨rfl, h.assembler⟩
  | some m =>
    dsimp only
    split
    case isTrue => exact ⟨by rw [Worker.transport, receiver_handle]; rfl, by
      rw [receiver_handle]; exact h.assembler⟩
    case isFalse => exact h

theorem now_attend (s : Simulator) (w : Worker Link) : (attend s w).now = w.now := by
  unfold attend
  split
  case h_1 => rfl
  case h_2 =>
    split
    case isTrue => rw [now, receiver_handle]; rfl
    case isFalse => rfl

theorem serve_eq (h : w.Shows s) (hmem : s.nextLine.1 ∈ lines) (hp : 0 < s.delay) (q : Request) :
    serve q w = .error (.failed q.refusal) (attend s w) := by
  have hs := h.attend
  have ho : (s.attended w.now).due.isSome = true := s.isSome_attended w.now
  cases hd : s.due with
  | none =>
    have hlt : (attend s w).now < w.now + s.delay := by
      rw [now_attend]
      exact Nat.lt_add_of_pos_right hp
    rw [attended_closed hd] at hs ho
    rw [serve, bind_of_ok (ensureConnected_closed h hd),
      bind_of_ok (guarded_ok (drain_early hs rfl hlt)), get_bind]
    exact refuses hs ho q
  | some m =>
    rw [serve, bind_of_ok (ensureConnected_shows h hd)]
    rcases Nat.lt_or_ge w.now m with hm | hm
    · rw [bind_of_ok (guarded_ok (drain_early h hd hm)), get_bind, attend_early hd hm]
      exact refuses h (by rw [hd]; rfl) q
    · rw [bind_of_ok (guarded_ok (drain_due h hmem hp hd hm)), get_bind]
      exact refuses hs ho q

def seen (now : Nat) (s : Simulator) : Look :=
  match s.dueLine? now with
  | some text => .frame text
  | none => .idle

theorem look_early (h : w.Shows s) (hd : s.due = some m) (hm : w.now < m) :
    Receiver.look w.receiver = .ok .idle w.receiver := by
  have ht : w.receiver.assembler.take? = none := by rw [h.assembler]; rfl
  exact Receiver.look_idle ht (Line.read_early h.transport hd hm)

theorem look_due (h : w.Shows s) (hmem : s.nextLine.1 ∈ lines) (hd : s.due = some m)
    (hm : m ≤ w.now) : Receiver.look w.receiver = .ok (.frame s.nextLine.1)
      (w.withTransport (.simulator (s.printed w.now))).receiver := by
  have ht : w.receiver.assembler.take? = none := by rw [h.assembler]; rfl
  have hp : (w.receiver.assembler.push (octets s.nextLine.1)).take? = some (s.nextLine.1, {}) := by
    rw [h.assembler, Assembler.push_line hmem, Assembler.take?_line hmem]
  rw [Receiver.look_frame ht (Line.read_due h.transport hd hm) (octets_ne_nil _) hp, ← h.assembler]
  rfl

theorem listen_eq (h : w.Shows s) (hmem : s.nextLine.1 ∈ lines) (hp : 0 < s.delay) :
    listen w = .ok (seen w.now s) (attend s w) := by
  unfold seen dueLine?
  cases hd : s.due with
  | none =>
    have hs := h.attend
    rw [attended_closed hd] at hs
    have hlt : (attend s w).now < w.now + s.delay := by
      rw [now_attend]
      exact Nat.lt_add_of_pos_right hp
    rw [listen_of_look (ensureConnected_closed h hd) (look_early hs rfl hlt)]
    rfl
  | some m =>
    rcases Nat.lt_or_ge w.now m with hm | hm
    · rw [listen_of_look (ensureConnected_shows h hd) (look_early h hd hm), attend_early hd hm]
      simp only [if_neg (Nat.not_le.mpr hm)]
      rfl
    · rw [listen_of_look (ensureConnected_shows h hd) (look_due h hmem hd hm), attend_due hd hm]
      simp only [if_pos hm]
      rfl

end Worker

end AlarmPanel
