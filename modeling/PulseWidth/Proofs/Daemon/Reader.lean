import Mathlib.Data.List.TakeWhile
import PulseWidth.Daemon.Loop
import PulseWidth.Proofs.Command.Grammar
import PulseWidth.Proofs.Daemon.Serving

/-!
# The reader of the input

The lines of the input reach the loop through a queue that a reader fills on a thread of its own.  The reader ends at
the end of the input, but also at the first line that is no text, and when the queue is empty then, the loop takes the
input for closed.  So whatever turns the two take, the loop hears the lines in front of that one, in their order, and
nothing that stands behind it (`Pipe.received_events`).
-/

namespace PulseWidth.Daemon

variable {bytes first : List UInt8} {lines before : List InputLine}

/-! ### Lines of bytes -/

theorem byteLines_flatten (bytes : List UInt8) : (byteLines bytes).flatten = bytes := by
  induction bytes with
  | nil => rfl
  | cons byte rest ih =>
    rw [byteLines]
    split
    · rename_i hbyte
      rw [List.flatten_cons, ih, hbyte, List.singleton_append]
    · split
      · rename_i hnil
        rw [hnil] at ih
        rw [← ih]
        rfl
      · rename_i line more hcons
        rw [hcons] at ih
        rw [← ih]
        rfl

theorem byteLines_eq_nil_iff : byteLines bytes = [] ↔ bytes = [] := by
  refine ⟨fun h => ?_, fun h => (by rw [h, byteLines])⟩
  rw [← byteLines_flatten bytes, h, List.flatten_nil]

/-- Nothing goes on behind a line feed. -/
theorem byteLines_append (h : first = [] ∨ first.getLast? = some 10) (rest : List UInt8) :
    byteLines (first ++ rest) = byteLines first ++ byteLines rest := by
  induction first with
  | nil => rfl
  | cons byte first ih =>
    have hlast : first = [] ∧ byte = 10 ∨ first.getLast? = some 10 := by
      rcases h with h | h
      · cases h
      · cases first with
        | nil => exact .inl ⟨rfl, Option.some.inj h⟩
        | cons => exact .inr (by rwa [List.getLast?_cons_cons] at h)
    have hfirst := ih (hlast.imp And.left id)
    rw [List.cons_append, byteLines, byteLines, hfirst]
    split
    · rfl
    · rename_i hbyte
      have hlast := hlast.resolve_left fun hfeed => hbyte hfeed.2
      obtain ⟨line, more, hcons⟩ : ∃ line more, byteLines first = line :: more := by
        refine List.exists_cons_of_ne_nil fun hnil => ?_
        rw [byteLines_eq_nil_iff.1 hnil] at hlast
        cases hlast
      rw [hcons]
      rfl

theorem byteLines_line {line : List UInt8} (h : 10 ∉ line) (rest : List UInt8) :
    byteLines (line ++ 10 :: rest) = (line ++ [10]) :: byteLines rest := by
  induction line with
  | nil => rfl
  | cons byte line ih =>
    obtain ⟨hbyte, hline⟩ := not_or.1 fun hmem => h (List.mem_cons.2 hmem)
    rw [List.cons_append, byteLines, if_neg (Ne.symm hbyte), ih hline]
    rfl

/-- A line is garbled if its bytes are no UTF-8. -/
theorem InputLine.ofBytes_eq_garbled_iff : ofBytes bytes = .garbled ↔ ¬ (ByteArray.mk bytes.toArray).IsValidUTF8 := by
  rw [ofBytes, String.fromUTF8?]
  split
  · rename_i line hline
    refine ⟨fun h => (by cases h), fun hno => ?_⟩
    rw [dif_neg hno] at hline
    cases hline
  · rename_i hnone
    refine ⟨fun _ hvalid => ?_, fun _ => rfl⟩
    rw [dif_pos hvalid] at hnone
    cases hnone

/-! ### What is heard -/

/-- The texts in front of the first line that is none. -/
def heard : List InputLine → List String
  | .text line :: rest => line :: heard rest
  | .garbled :: _ | [] => []

/-- The texts among some lines. -/
def texts : List InputLine → List String
  | .text line :: rest => line :: texts rest
  | .garbled :: rest => texts rest
  | [] => []

theorem heard_append_garbled (before after : List InputLine) : heard (before ++ .garbled :: after) = heard before := by
  induction before with
  | nil => rfl
  | cons line rest ih =>
    cases line with
    | text line => exact congrArg (line :: ·) ih
    | garbled => rfl

theorem texts_append (before after : List InputLine) : texts (before ++ after) = texts before ++ texts after := by
  induction before with
  | nil => rfl
  | cons line rest ih =>
    cases line with
    | text line => exact congrArg (line :: ·) ih
    | garbled => exact ih

theorem heard_prefix_texts (lines : List InputLine) : heard lines <+: texts lines := by
  induction lines with
  | nil => exact List.prefix_rfl
  | cons line rest ih =>
    cases line with
    | text line => exact List.cons_prefix_cons.2 ⟨rfl, ih⟩
    | garbled => exact List.nil_prefix

/-- Nothing is lost if no text stands behind a line that is none. -/
theorem heard_eq_texts_iff :
    heard lines = texts lines ↔ ∀ before after, lines = before ++ .garbled :: after → texts after = [] := by
  constructor
  · rintro h before after rfl
    rw [heard_append_garbled, texts_append] at h
    have hlength : (heard before).length = (texts before).length + (texts after).length := by
      rw [h, List.length_append, texts]
    have hle := (heard_prefix_texts before).length_le
    exact List.length_eq_zero_iff.1 (by omega)
  · intro h
    induction lines with
    | nil => rfl
    | cons line rest ih =>
      cases line with
      | text line =>
        exact congrArg (line :: ·) (ih fun before after hrest => h (_ :: before) after (congrArg _ hrest))
      | garbled => exact (h [] rest rfl).symm

/-! ### Orders of lines -/

/-- The commands of some lines, up to the first one to leave. -/
def ordersOf (lines : List String) : List Command := (lines.filterMap command?).takeWhile fun c => !c.leaves

theorem orders_eq (events : List LoopEvent) : orders events = ordersOf (received events) := rfl

section Orders

variable {few many : List String}

theorem ordersOf_prefix (h : few <+: many) : ordersOf few <+: ordersOf many := by
  obtain ⟨rest, rfl⟩ := h
  rw [ordersOf, ordersOf, List.filterMap_append, List.takeWhile_append]
  split
  · exact (List.takeWhile_prefix _).trans (List.prefix_append _ _)
  · exact List.prefix_rfl

/-- What stands behind a command to leave is not carried out. -/
theorem ordersOf_of_leaves (h : few <+: many) (hleaves : (few.filterMap command?).any Command.leaves = true) :
    ordersOf few = ordersOf many := by
  obtain ⟨rest, rfl⟩ := h
  rw [ordersOf, ordersOf, List.filterMap_append, List.takeWhile_append, if_neg]
  intro hlength
  obtain ⟨c, hc, hleaves⟩ := List.any_eq_true.1 hleaves
  have hstays := List.takeWhile_eq_self_iff.1 ((List.takeWhile_prefix _).eq_of_length hlength) c hc
  rw [hleaves] at hstays
  cases hstays

end Orders

/-- What is met of a feed holds the lines that are heard. -/
theorem received_arrivals_append {events : List LoopEvent} (h : received events = []) (lines : List InputLine) :
    received (arrivals lines ++ events) = heard lines := by
  induction lines with
  | nil => exact h
  | cons line rest ih =>
    cases line with
    | text line => exact congrArg (line :: ·) ih
    | garbled => rfl

theorem received_feed (f : Feed) : received f.events = heard f.lines := by
  rw [Feed.events, List.append_assoc]
  apply received_arrivals_append
  cases f.closed <;> cases f.signalled <;> rfl

/-! ### Reader and loop -/

/-- Whose turn it is. -/
inductive Turn where
  | reader
  | loop
  /-- A signal sets the latch. -/
  | signal
deriving DecidableEq, Repr

/-- What lies between the input and the loop. -/
structure Pipe where
  /-- The lines that have not been read. -/
  unread : List InputLine
  /-- The lines that have been read and not been taken. -/
  queue : List String
  /-- Whether the reader has not ended. -/
  reading : Bool

namespace Pipe

variable {p : Pipe} {turns : List Turn}

/-- Nothing has been read yet. -/
def ofBytes (bytes : List UInt8) : Pipe := ⟨inputLines bytes, [], true⟩

/-- The reader queues the next line, or ends. -/
def read (p : Pipe) : Pipe :=
  match p.reading, p.unread with
  | true, .text line :: rest => { p with unread := rest, queue := p.queue ++ [line] }
  | true, .garbled :: rest => { p with unread := rest, reading := false }
  | true, [] => { p with reading := false }
  | false, _ => p

/-- What the loop meets when it waits for the queue. -/
def event (p : Pipe) : LoopEvent :=
  match p.queue with
  | line :: _ => .line line
  | [] => if p.reading then .timeout else .disconnected

/-- The loop takes a line off the queue, if there is one. -/
def taken (p : Pipe) : Pipe := { p with queue := p.queue.tail }

/-- What a turn does. -/
def move (p : Pipe) : Turn → Pipe
  | .reader => p.read
  | .loop => p.taken
  | .signal => p

/-- What some turns lead to. -/
def run (p : Pipe) (turns : List Turn) : Pipe := turns.foldl move p

/-- What the loop meets in the course of some turns. -/
def events (p : Pipe) : List Turn → List LoopEvent
  | [] => []
  | .reader :: rest => p.read.events rest
  | .loop :: rest => p.event :: p.taken.events rest
  | .signal :: rest => .signal :: p.events rest

/-- The lines that the reader will still queue. -/
def ahead (p : Pipe) : List String := if p.reading then heard p.unread else []

/-- The lines that the loop will still hear. -/
def pending (p : Pipe) : List String := p.queue ++ p.ahead

theorem pending_read (p : Pipe) : p.read.pending = p.pending := by
  obtain ⟨unread, queue, reading⟩ := p
  cases reading with
  | false => rfl
  | true =>
    cases unread with
    | nil => rfl
    | cons line rest =>
      cases line with
      | text line => exact List.append_assoc queue [line] (heard rest)
      | garbled => rfl

/-- No line is lost between the reader and the loop, and none is made up.  The loop has heard all of them when it
takes the input for closed. -/
theorem received_events (p : Pipe) (turns : List Turn) : ∃ rest, received (p.events turns) ++ rest = p.pending ∧
    (.signal ∉ turns → (p.run turns).pending = rest ∧ (.disconnected ∈ p.events turns → rest = [])) := by
  induction turns generalizing p with
  | nil => exact ⟨p.pending, rfl, fun _ => ⟨rfl, fun h => absurd h List.not_mem_nil⟩⟩
  | cons turn turns ih =>
    cases turn with
    | signal => exact ⟨p.pending, rfl, fun h => absurd List.mem_cons_self h⟩
    | reader =>
      obtain ⟨rest, hpending, hrest⟩ := ih p.read
      rw [pending_read] at hpending
      exact ⟨rest, hpending, fun h => hrest fun hmem => h (List.mem_cons_of_mem _ hmem)⟩
    | loop =>
      obtain ⟨rest, hpending, hrest⟩ := ih p.taken
      have hlater (h : .signal ∉ .loop :: turns) := hrest fun hmem => h (List.mem_cons_of_mem _ hmem)
      obtain ⟨unread, queue, reading⟩ := p
      cases queue with
      | cons line queue =>
        refine ⟨rest, congrArg (line :: ·) hpending, fun h => ⟨(hlater h).1, fun hmem => ?_⟩⟩
        exact (hlater h).2 (List.mem_of_ne_of_mem (by nofun) hmem)
      | nil =>
        cases reading with
        | true =>
          refine ⟨rest, hpending, fun h => ⟨(hlater h).1, fun hmem => ?_⟩⟩
          exact (hlater h).2 (List.mem_of_ne_of_mem (by nofun) hmem)
        | false =>
          obtain ⟨-, rfl⟩ := List.append_eq_nil_iff.1 hpending
          exact ⟨[], rfl, fun h => ⟨(hlater h).1, fun _ => rfl⟩⟩

theorem run_append (p : Pipe) (turns more : List Turn) : p.run (turns ++ more) = (p.run turns).run more :=
  List.foldl_append

/-- The reader comes to its end. -/
theorem exists_read (p : Pipe) : ∃ n, (p.run (.replicate n .reader)).ahead = [] := by
  obtain ⟨unread, queue, reading⟩ := p
  cases reading with
  | false => exact ⟨0, rfl⟩
  | true =>
    induction unread generalizing queue with
    | nil => exact ⟨0, rfl⟩
    | cons line rest ih =>
      cases line with
      | garbled => exact ⟨0, rfl⟩
      | text line =>
        obtain ⟨n, hn⟩ := ih (queue ++ [line])
        exact ⟨n + 1, hn⟩

/-- The loop gets to the end of the queue. -/
theorem exists_taken (h : p.ahead = []) : ∃ n, (p.run (.replicate n .loop)).pending = [] := by
  obtain ⟨unread, queue, reading⟩ := p
  induction queue with
  | nil => exact ⟨0, h⟩
  | cons line queue ih =>
    obtain ⟨n, hn⟩ := ih h
    exact ⟨n + 1, hn⟩

/-- All lines can be heard that are to be heard. -/
theorem exists_heard (p : Pipe) : ∃ more, .signal ∉ more ∧ (p.run more).pending = [] := by
  obtain ⟨n, hn⟩ := p.exists_read
  obtain ⟨m, hm⟩ := exists_taken hn
  refine ⟨.replicate n .reader ++ .replicate m .loop, ?_, by rw [run_append, hm]⟩
  simp [List.mem_replicate]

end Pipe

/-- Nothing is heard behind the first line that is no UTF-8. -/
theorem heard_of_no_text {bad : List UInt8} (h : first = [] ∨ first.getLast? = some 10) (hbad : 10 ∉ bad)
    (hno : ¬ (ByteArray.mk (bad ++ [10]).toArray).IsValidUTF8) (rest : List UInt8) :
    heard (inputLines (first ++ (bad ++ 10 :: rest))) = heard (inputLines first) := by
  rw [inputLines, byteLines_append h, byteLines_line hbad, List.map_append, List.map_cons,
    InputLine.ofBytes_eq_garbled_iff.2 hno, heard_append_garbled, inputLines]

/-- Whatever turns the reader and the loop take, what is carried out are commands of the lines that are heard, in their
order and up to the first one to leave; it is all of them if the loop has taken the input for closed or met a command
to leave, and before that it can still come to be all of them.  The lines that are heard are those in front of the
first that is no UTF-8: they are all that are texts only if no text stands behind that one. -/
theorem orders_of_bytes (bytes : List UInt8) :
    (∀ turns events, (Pipe.ofBytes bytes).events turns = events →
      (∃ inputOpen, ∀ e : Engine, (serve e events).hushed = Program.hushed do
        let e ← (orders events).foldlM Engine.obey e
        let e ← if ends events then e.exit else pure e
        return (⟨e, ends events, inputOpen⟩ : LoopState)) ∧
      orders events <+: ordersOf (heard (inputLines bytes)) ∧
      ((commands events).any Command.leaves = true → orders events = ordersOf (heard (inputLines bytes))) ∧
      (.signal ∉ turns →
        (.disconnected ∈ events → orders events = ordersOf (heard (inputLines bytes))) ∧
        ∃ more, .signal ∉ more ∧
          orders ((Pipe.ofBytes bytes).events (turns ++ more)) = ordersOf (heard (inputLines bytes)))) ∧
    (∀ closed signalled,
      orders (Feed.events ⟨inputLines bytes, closed, signalled⟩) = ordersOf (heard (inputLines bytes))) ∧
    (heard (inputLines bytes) = texts (inputLines bytes) ↔
      ∀ before after, inputLines bytes = before ++ .garbled :: after → texts after = []) ∧
    ∀ first bad rest, bytes = first ++ (bad ++ 10 :: rest) → (first = [] ∨ first.getLast? = some 10) → 10 ∉ bad →
      ¬ (ByteArray.mk (bad ++ [10]).toArray).IsValidUTF8 → heard (inputLines bytes) = heard (inputLines first) := by
  refine ⟨?_, fun closed signalled => ?_, heard_eq_texts_iff, ?_⟩
  · rintro turns _ rfl
    obtain ⟨rest, hpending, hrest⟩ := (Pipe.ofBytes bytes).received_events turns
    have hprefix : received ((Pipe.ofBytes bytes).events turns) <+: heard (inputLines bytes) := ⟨rest, hpending⟩
    refine ⟨hushed_serve _, ordersOf_prefix hprefix, ordersOf_of_leaves hprefix, fun hsignal => ⟨fun hclosed => ?_, ?_⟩⟩
    · rw [(hrest hsignal).2 hclosed, List.append_nil] at hpending
      rw [orders_eq, hpending]
      rfl
    · obtain ⟨more, hmore, hdone⟩ := ((Pipe.ofBytes bytes).run turns).exists_heard
      refine ⟨more, hmore, ?_⟩
      obtain ⟨rest, hpending, hrest⟩ := (Pipe.ofBytes bytes).received_events (turns ++ more)
      have hsignal : .signal ∉ turns ++ more := fun h => (List.mem_append.1 h).elim hsignal hmore
      rw [← (hrest hsignal).1, Pipe.run_append, hdone, List.append_nil] at hpending
      rw [orders_eq, hpending]
      rfl
  · rw [orders_eq, received_feed]
  · rintro first bad rest rfl hfirst hbad hno
    exact heard_of_no_text hfirst hbad hno rest

/-- The bytes of a text. -/
def utf8 (text : String) : List UInt8 := text.toUTF8.data.toList

/-- What is carried out of `stop`, a line that is no UTF-8 and `start`, and of the same with `quit` in front of that
line. -/
theorem orders_of_small :
    heard (inputLines (utf8 "stop\nquit\n" ++ ([255] ++ 10 :: utf8 "start\n"))) =
      heard (inputLines (utf8 "stop\nquit\n")) ∧
    orders ((Pipe.ofBytes (utf8 "stop\n" ++ ([255] ++ 10 :: utf8 "start\n"))).events
      [.reader, .loop, .reader, .loop]) = ordersOf ["stop"] ∧
    orders ((Pipe.ofBytes (utf8 "stop\nquit\n" ++ ([255] ++ 10 :: utf8 "start\n"))).events
      [.reader, .reader, .loop, .loop, .signal]) = ordersOf ["stop", "quit"] := by
  obtain ⟨hturns, -, -, hlost⟩ := orders_of_bytes (utf8 "stop\nquit\n" ++ ([255] ++ 10 :: utf8 "start\n"))
  obtain ⟨-, -, hleaves, -⟩ := hturns [.reader, .reader, .loop, .loop, .signal] _ rfl
  obtain ⟨-, -, -, hopen⟩ := (orders_of_bytes (utf8 "stop\n" ++ ([255] ++ 10 :: utf8 "start\n"))).1
    [.reader, .loop, .reader, .loop] _ rfl
  refine ⟨?_, ?_, ?_⟩
  · exact hlost (utf8 "stop\nquit\n") [255] _ rfl (by decide +kernel) (by decide) (by decide +kernel)
  · rw [(hopen (by decide)).1 (by decide +kernel)]
    exact congrArg _ (by decide +kernel)
  · rw [hleaves (by decide +kernel)]
    exact congrArg _ (by decide +kernel)

/-- Behind a line that is no UTF-8 a status is not carried out. -/
theorem no_orders_of_status :
    inputLines (utf8 "18=" ++ 255 :: utf8 "\nstatus\n") = [.garbled, .text "status"] ∧
    ordersOf (texts (inputLines (utf8 "18=" ++ 255 :: utf8 "\nstatus\n"))) = [.status] ∧
    ∀ turns, orders ((Pipe.ofBytes (utf8 "18=" ++ 255 :: utf8 "\nstatus\n")).events turns) = [] := by
  have hlines : inputLines (utf8 "18=" ++ 255 :: utf8 "\nstatus\n") = [.garbled, .text "status"] := by decide +kernel
  have hname : ("status", .status) ∈ Command.verbs := by simp [Command.verbs]
  have hparse : Command.parse "status".toList = .ok .status := Command.parse_of_written (.verb hname (by decide))
  have hstatus : command? "status" = some .status := by
    rw [command?, if_neg (by decide +kernel), hparse]
    rfl
  have hpending : (Pipe.ofBytes (utf8 "18=" ++ 255 :: utf8 "\nstatus\n")).pending = [] := by
    show heard (inputLines _) = []
    rw [hlines, heard]
  refine ⟨hlines, ?_, fun turns => ?_⟩
  · rw [hlines]
    simp only [texts, ordersOf, List.filterMap_cons_some hstatus]
    rfl
  · obtain ⟨rest, hreceived, -⟩ := Pipe.received_events (Pipe.ofBytes _) turns
    rw [hpending] at hreceived
    rw [orders_eq, (List.append_eq_nil_iff.1 hreceived).1]
    rfl

end PulseWidth.Daemon
