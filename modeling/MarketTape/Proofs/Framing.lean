import MarketTape.Audit.Line
import MarketTape.Proofs.Desk
import MarketTape.Proofs.Spelling

/-!
# The text of the log holds its records

The text of a log can be cut at its line breaks without looking into the lines: every record is one
line, and the line gives back the number and the event.  So nothing that a strategy or a data file
puts into a name can add a line or change a record.

* `AuditEvent.counts` and `AuditEvent.amounts` are the numbers of an event, which have to be such
  that their text stands for them.
* `AuditRecord.read?_line` reads one record, and `AuditLog.splitOn_text` cuts the text.
* `log_text_reads_back` puts both together, for a log that is kept and for one that is not.
-/

namespace MarketTape

open Json

/-! ## Names of choices -/

lemma Side.lookup_label (side : Side) : Side.labels.lookup side.label = some side := by
  cases side <;> rfl

lemma Offset.lookup_label (offset : Offset) :
    Offset.labels.lookup offset.label = some offset := by
  cases offset <;> rfl

lemma OrderStatus.lookup_label (status : OrderStatus) :
    OrderStatus.labels.lookup status.label = some status := by
  cases status <;> rfl

lemma RolloverMode.lookup_label (mode : RolloverMode) :
    RolloverMode.labels.lookup mode.label = some mode := by
  cases mode <;> rfl

lemma RolloverLeg.lookup_label (leg : RolloverLeg) :
    RolloverLeg.labels.lookup leg.label = some leg := by
  cases leg <;> rfl

lemma choiceInRecord?_str {β : Type} (names : List (String × β)) (s : String) :
    (Draft.str s).choiceInRecord? names = names.lookup s := rfl

/-! ## Events -/

namespace AuditEvent

variable {α : Type}

/-- The whole numbers of an event. -/
def counts : AuditEvent α → List Int
  | order time _ _ _ volume _ _ _ => [time, volume]
  | trade time _ _ _ volume _ net _ _ _ => [time, volume, net]
  | rollover time _ _ _ _ _ volume _ _ _ => [time, volume]

/-- The prices and amounts of money of an event. -/
def amounts : AuditEvent α → List α
  | order _ _ _ _ _ price _ _ => [price]
  | trade _ _ _ _ _ price _ average realized _ => [price, average, realized]
  | rollover _ _ _ _ _ _ _ price slippageCost realized => [price, slippageCost, realized]

lemma legible_members {levels : Nat} {e : AuditEvent Float} (hcounts : ∀ n ∈ e.counts, Count.Fits n)
    (hamounts : ∀ x ∈ e.amounts, ReadsBack x) :
    ∀ member ∈ e.members, Legible levels member.2 := by
  have hcount : ∀ n ∈ e.counts, Legible levels (.int n) := by
    intro n hn
    obtain ⟨hleast, hgreatest⟩ := hcounts n hn
    have hword : Count.greatest ≤ greatestWord := by decide
    exact .int hleast (Int.le_trans hgreatest hword)
  have hamount : ∀ x ∈ e.amounts, Legible levels (.float x) := fun x hx => .float (hamounts x hx)
  have htext : ∀ s : String, Legible levels (.str s) := fun s => .str s
  cases e <;> simp_all [members, counts, amounts]

/-- The members of an event as they are found in a record. -/
def drafts (e : AuditEvent Float) : List (String × Draft) :=
  e.members.map fun member => (member.1, Draft.ofJson member.2)

lemma ofMembers?_drafts {e : AuditEvent Float} (hcounts : ∀ n ∈ e.counts, Count.Fits n) :
    ofMembers? e.drafts = some e := by
  have hcount : ∀ n ∈ e.counts, (Draft.int n).count? = some n :=
    fun n hn => Count.fit_eq_some_iff.mpr ⟨hcounts n hn, rfl⟩
  have horder : AuditKind.of? (.str "order") = some .order := rfl
  have htrade : AuditKind.of? (.str "trade") = some .trade := rfl
  have hrollover : AuditKind.of? (.str "rollover") = some .rollover := rfl
  cases e <;>
    simp_all [counts, drafts, members, ofMembers?, onlyMember?, Draft.ofJson, Draft.float?,
      Draft.text?, choiceInRecord?_str, Side.lookup_label, Offset.lookup_label,
      OrderStatus.lookup_label, RolloverMode.lookup_label, RolloverLeg.lookup_label]

end AuditEvent

/-! ## Records -/

namespace AuditRecord

lemma splitMembers?_event (seq : Nat) (e : AuditEvent Float) :
    splitMembers? (Draft.ofMembers (("seq", .int seq) :: e.members)) =
      some ([.int seq], e.drafts) := by
  cases e <;>
    simp [AuditEvent.drafts, AuditEvent.members, Draft.ofMembers, Draft.ofJson, splitMembers?,
      Draft.isUsable, Draft.toJson?]

lemma ofDraft?_ofJson {r : AuditRecord Float} (hcounts : ∀ n ∈ r.event.counts, Count.Fits n) :
    ofDraft? (Draft.ofJson r.toJson) = some r := by
  have hnumber : (Draft.int (r.seq : Int)).word? = some r.seq := by simp [Draft.word?]
  simp only [toJson, Draft.ofJson, ofDraft?, splitMembers?_event, hnumber,
    AuditEvent.ofMembers?_drafts hcounts]

/-- A record is read back from its line. -/
theorem read?_line {r : AuditRecord Float} (hseq : r.seq ≤ greatestWord)
    (hcounts : ∀ n ∈ r.event.counts, Count.Fits n) (hamounts : ∀ x ∈ r.event.amounts, ReadsBack x) :
    read? r.line = some r := by
  have hmembers : ∀ member ∈ ("seq", .int r.seq) :: r.event.members, Legible 126 member.2 := by
    intro member hmember
    rcases List.mem_cons.mp hmember with rfl | hmember
    · exact .int (by omega) (by omega)
    · exact AuditEvent.legible_members hcounts hamounts member hmember
  have hread := Draft.read?_compact (v := r.toJson) (.obj hmembers)
  rw [read?, line, compactText, String.toList_ofList, hread, Option.bind_some,
    ofDraft?_ofJson hcounts]

end AuditRecord

/-! ## The text -/

namespace AuditLog

variable {α : Type}

/-- What each of a row of appends answers. -/
def answers (log : AuditLog α) : List (AuditEvent α) → List (Option Nat)
  | [] => []
  | e :: rest => (log.append e).lastNumber :: (log.append e).answers rest

lemma answers_enabled (events : List (AuditEvent α)) : ∀ log : AuditLog α, log.enabled = true →
    log.answers events = (List.range' (log.size + 1) events.length).map some := by
  induction events with
  | nil => exact fun log _ => rfl
  | cons e rest ih =>
    intro log henabled
    have hsize : (log.append e).size = log.size + 1 := by simp [append, size, henabled]
    have hlast : (log.append e).lastNumber = some (log.size + 1) := by
      rw [lastNumber, enabled_append, if_pos henabled, ← hsize]
      rfl
    rw [answers, hlast, ih _ (by rwa [enabled_append]), hsize, List.length_cons, List.range'_succ,
      List.map_cons]

lemma answers_disabled {log : AuditLog α} (h : log.enabled = false) (events : List (AuditEvent α)) :
    log.answers events = List.replicate events.length none := by
  induction events with
  | nil => rfl
  | cons e rest ih =>
    have hlast : log.lastNumber = none := by simp [lastNumber, h]
    rw [answers, append_disabled h, ih, hlast, List.length_cons, List.replicate_succ]

/-- The lines of the text, in order. -/
def lines (log : AuditLog Float) : List (List Char) := log.records.map (·.line.toList)

lemma newline_not_mem_of_mem_lines {log : AuditLog Float} {line : List Char}
    (h : line ∈ log.lines) : '\n' ∉ line := by
  obtain ⟨r, -, rfl⟩ := List.mem_map.mp h
  rw [AuditRecord.line, compactText, String.toList_ofList]
  exact newline_not_mem_compact _

lemma splitOn_flatMap {x : Char} : ∀ {lines : List (List Char)}, (∀ line ∈ lines, x ∉ line) →
    (lines.flatMap (· ++ [x])).splitOn x = lines ++ [[]]
  | [], _ => rfl
  | line :: lines, h => by
    have hline := h line (by simp)
    have hlines := splitOn_flatMap fun l (hl : l ∈ lines) => h l (by simp [hl])
    rw [List.flatMap_cons, List.append_assoc, List.singleton_append,
      List.splitOn_append_cons_self_of_not_mem hline, hlines, List.cons_append]

/-- Every line ends with a break, so what follows the last break is empty. -/
theorem splitOn_text (log : AuditLog Float) : log.text.toList.splitOn '\n' = log.lines ++ [[]] := by
  have htext : log.text.toList = log.lines.flatMap (· ++ ['\n']) := by
    simp [text, lines, String.toList_join, List.flatMap_map]
  rw [htext]
  exact splitOn_flatMap fun _ => newline_not_mem_of_mem_lines

end AuditLog

/-! ## Any row of events -/

/-- **A kept log reads back.**  Its appends answer with the numbers from 1, and the text falls apart
at its line breaks into one line for each of them, which holds the number and the event.  A log that
is not kept answers nothing and stays empty.  Numbers of records have 64 bits. -/
theorem log_text_reads_back (events : List (AuditEvent Float))
    (hlength : events.length ≤ greatestWord)
    (hcounts : ∀ e ∈ events, ∀ n ∈ e.counts, Count.Fits n)
    (hfinite : ∀ e ∈ events, ∀ x ∈ e.amounts, x.isFinite = true)
    (hreads : ∀ e ∈ events, ∀ x ∈ e.amounts, x.isFinite = true → ReadsBack x) :
    ((AuditLog.start true).answers events = (List.range' 1 events.length).map some ∧
      ((AuditLog.start true).extend events).size = events.length ∧
      ∃ lines : List (List Char),
        ((AuditLog.start true).extend events).text.toList.splitOn '\n' = lines ++ [[]] ∧
        lines.length = events.length ∧
        ∀ n, (hn : n < lines.length) → (he : n < events.length) →
          AuditRecord.read? (String.ofList lines[n]) = some ⟨n + 1, events[n]⟩) ∧
    (AuditLog.start false).answers events = List.replicate events.length none ∧
      ((AuditLog.start false).extend events).size = 0 ∧
      ((AuditLog.start false).extend events).text = "" := by
  have hevents : ((AuditLog.start true).extend events).events.toList = events :=
    AuditLog.toList_extend rfl events
  have hsilent : (AuditLog.start false).extend events = AuditLog.start false :=
    AuditLog.extend_disabled rfl events
  refine ⟨⟨AuditLog.answers_enabled events _ rfl, ?_, _, AuditLog.splitOn_text _, ?_, ?_⟩,
    AuditLog.answers_disabled rfl events, ?_, ?_⟩
  · rw [AuditLog.size, ← Array.length_toList, hevents]
  · simp [AuditLog.lines, AuditLog.records, hevents]
  · intro n hn he
    have hmem := List.getElem_mem he
    -- this is the one place where the doubles have to be finite
    have hamounts : ∀ x ∈ events[n].amounts, ReadsBack x :=
      fun x hx => hreads _ hmem x hx (hfinite _ hmem x hx)
    have hread := AuditRecord.read?_line (r := ⟨n + 1, events[n]⟩)
      (by dsimp only; omega) (hcounts _ hmem) hamounts
    simpa [AuditLog.lines, AuditLog.records, hevents] using hread
  · rw [hsilent]
    rfl
  · rw [hsilent]
    rfl

/-- One event of each kind, with line breaks, quotes and control characters in the names and with
numbers at the ends of their ranges. -/
def noisyEvents : List (AuditEvent Float) :=
  [.order (-9223372036854775808) "rb\n2405" .buy .opening 1 100.5 .accepted "trace-\"1\"",
    .trade 1704067260000000000 "\x00\\\t" .sell .closing 9223372036854775807 0.1 (-3) 4999.5
      (-0.0) "\r\n",
    .rollover 0 "" "é\x7f\x1b🛢" .carrying .carry .sell 2 0.0 1.25 (-12345.678)]

theorem log_text_reads_back_noisyEvents :
    (∀ e ∈ noisyEvents, ∀ n ∈ e.counts, Count.Fits n) ∧
      (∀ e ∈ noisyEvents, ∀ x ∈ e.amounts, x.isFinite = true ∧ ReadsBack x) ∧
      ∃ lines : List (List Char),
        ((AuditLog.start true).extend noisyEvents).text.toList.splitOn '\n' = lines ++ [[]] ∧
        lines.length = 3 ∧
        (lines.map fun line => AuditRecord.read? (String.ofList line)) =
          [some ⟨1, noisyEvents[0]⟩, some ⟨2, noisyEvents[1]⟩, some ⟨3, noisyEvents[2]⟩] := by
  have hcounts : ∀ e ∈ noisyEvents, ∀ n ∈ e.counts, Count.Fits n := by decide
  have hamounts : ∀ e ∈ noisyEvents, ∀ x ∈ e.amounts, x.isFinite = true ∧ ReadsBack x := by
    decide +kernel
  obtain ⟨⟨-, -, lines, htext, hlength, hlines⟩, -⟩ :=
    log_text_reads_back noisyEvents (by decide) hcounts (fun e he x hx => (hamounts e he x hx).1)
      fun e he x hx _ => (hamounts e he x hx).2
  refine ⟨hcounts, hamounts, lines, htext, hlength, ?_⟩
  -- one line after the other, as the general theorem reads it
  refine List.ext_getElem (by rw [List.length_map, hlength]; rfl) fun n hn hn' => ?_
  have hn : n < lines.length := by simpa using hn
  rw [List.getElem_map, hlines n hn (hlength ▸ hn)]
  match n, hn' with
  | 0, _ | 1, _ | 2, _ => rfl

end MarketTape
