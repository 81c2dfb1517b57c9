/-
Lexemes asked for one by one.

What is ahead of a lexer is settled by its table and its cursor, so a request splits it into
what the request passes and what stays ahead.  Whatever the number of requests, the lexemes
passed were given out, the unrecognized texts passed were reported, and the rest comes later.
A sink takes the reports and has no say in this.
-/
import QueryExpr.Proofs.Lexer.MaximalMunch
import QueryExpr.Proofs.Lexer.Pulling

namespace QueryExpr

section Stops

variable {table : SymbolTable} {start c d e stop : Cursor} {f : Finding} {fs gs : List Finding}
  {source : List Char}

theorem findAt_stop (h : findAt table start = (f, stop)) : f.span.stop = stop.position := by
  unfold findAt at h
  split at h
  · obtain ⟨rfl, rfl⟩ := Prod.mk.inj h
    rfl
  · obtain ⟨rfl, rfl⟩ := Prod.mk.inj h
    rfl

theorem scan_stop (h : scan table c = some (f, d)) : f.span.stop = d.position := by
  unfold scan at h
  dsimp only at h
  split at h
  · cases h
  · exact findAt_stop (Option.some.inj h)

theorem Cursor.HasRead.offset_le {read more : List Char} (hc : c.HasRead read)
    (hd : d.HasRead (read ++ more)) : c.position.offset ≤ d.position.offset :=
  hc.offset_append hd ▸ Nat.le_add_right _ _

/-- A run leaves behind it all that it has found. -/
theorem Scans.stop_le (ht : table.Obtained) {read : List Char} (hc : c.HasRead read)
    (h : Scans table c fs d) :
    c.position.offset ≤ d.position.offset ∧
      ∀ f ∈ fs, f.span.stop.offset ≤ d.position.offset := by
  induction h generalizing read with
  | refl c => exact ⟨Nat.le_refl _, nofun⟩
  | step head tail ih =>
    obtain ⟨blanks, taken, -, -, -, hd, -⟩ := scan_isRight ht hc head
    obtain ⟨hle, htail⟩ := ih hd
    have hfirst := hc.offset_le (List.append_assoc read blanks taken ▸ hd)
    refine ⟨Nat.le_trans hfirst hle, List.forall_mem_cons.mpr ⟨?_, htail⟩⟩
    rw [scan_stop head]
    exact hle

/-- A run to the end of the text begins with every run from the same place. -/
theorem Scans.split (h : Scans table c fs e) (hend : scan table e = none)
    (k : Scans table c gs d) : ∃ rest, fs = gs ++ rest ∧ Scans table d rest e := by
  induction k generalizing fs with
  | refl c => exact ⟨fs, rfl, h⟩
  | step head tail ih =>
    cases h with
    | refl => cases hend.symm.trans head
    | step head' tail' =>
      cases head'.symm.trans head
      obtain ⟨rest, rfl, hrest⟩ := ih tail'
      exact ⟨rest, rfl, hrest⟩

theorem Scans.standsIn (hc : c.StandsIn source) (h : Scans table c fs d) :
    d.StandsIn source := by
  induction h with
  | refl c => exact hc
  | step head tail ih => exact ih (scan_isCut hc head).1

/-- A run ends where its last finding does. -/
theorem Scans.last_stop (h : Scans table c (fs ++ [f]) d) : f.span.stop = d.position := by
  induction fs generalizing c with
  | nil =>
    cases h with
    | step head tail =>
      cases tail
      exact scan_stop head
  | cons g fs ih =>
    cases h with
    | step head tail => exact ih tail

theorem skipBlanks_rest_eq_nil (h : scan table c = none) : c.skipBlanks.rest = [] := by
  rw [Cursor.skipBlanks, Cursor.skipWhile_rest, List.dropWhile_eq_nil_iff]
  exact scan_eq_none.mp h

theorem skipBlanks_eq_self (h : c.rest = []) : c.skipBlanks = c := by
  rw [Cursor.skipBlanks, Cursor.skipWhile, h]
  rfl

end Stops

namespace Lexer

/-- The findings that are ahead of the lexer, up to the end of its text. -/
def Ahead (l : Lexer) (fs : List Finding) : Prop :=
  ∃ e, Scans l.table l.cursor fs e ∧ scan l.table e = none

/-- The lexer `l` with `fs` ahead of it has come to `m`: it has passed `done` and reported the
unrecognized texts in there, and `rest` is still ahead. -/
structure Advanced (source : List Char) (l : Lexer) (fs : List Finding) (m : Lexer)
    (done rest : List Finding) : Prop where
  split : fs = done ++ rest
  ahead : m.Ahead rest
  table_eq : m.table = l.table
  sink_eq : m.sink = (done.filterMap Finding.unrecognized?).foldl Sink.report l.sink
  standsIn : m.cursor.StandsIn source
  offset_le : l.cursor.position.offset ≤ m.cursor.position.offset
  passed : ∀ f ∈ done, f.span.stop.offset ≤ m.cursor.position.offset

variable {source : List Char} {l m n : Lexer} {fs gs done done' rest : List Finding}

namespace Advanced

theorem refl (hc : l.cursor.StandsIn source) (h : l.Ahead fs) : Advanced source l fs l [] fs :=
  ⟨rfl, h, rfl, rfl, hc, Nat.le_refl _, nofun⟩

theorem trans (h : Advanced source l fs m done gs) (k : Advanced source m gs n done' rest) :
    Advanced source l fs n (done ++ done') rest := by
  refine ⟨?_, k.ahead, k.table_eq.trans h.table_eq, ?_, k.standsIn,
    Nat.le_trans h.offset_le k.offset_le, List.forall_mem_append.mpr ⟨?_, k.passed⟩⟩
  · rw [h.split, k.split, List.append_assoc]
  · rw [k.sink_eq, h.sink_eq, List.filterMap_append, List.foldl_append]
  · exact fun f hf => Nat.le_trans (h.passed f hf) k.offset_le

end Advanced

/-- The lexer stands where this answer to a request leaves it. -/
def StandsBehind (l : Lexer) : Option Lexeme → Prop
  | some x => l.cursor.position = x.span.stop
  | none => l.cursor.isEnd = true

theorem Becomes.advanced (ht : l.table.Obtained) (hc : l.cursor.StandsIn source)
    (h : l.Ahead fs) (k : l.Becomes done m) : ∃ rest, Advanced source l fs m done rest := by
  obtain ⟨-, read, hread⟩ := Cursor.standsIn_iff.mp hc
  obtain ⟨e, hscans, hend⟩ := h
  obtain ⟨rest, hsplit, hrest⟩ := hscans.split hend k.scans
  obtain ⟨hle, hpassed⟩ := k.scans.stop_le ht hread
  refine ⟨rest, hsplit, ⟨e, ?_, ?_⟩, k.table_eq, k.sink_eq, k.scans.standsIn hc, hle, hpassed⟩
  · rw [k.table_eq]
    exact hrest
  · rw [k.table_eq]
    exact hend

/-- Passing the last blanks leaves nothing ahead. -/
theorem Advanced.finish (h : Advanced source l fs m done rest)
    (hend : scan m.table m.cursor = none) :
    Advanced source l fs m.finish done [] ∧ m.finish.cursor.isEnd = true := by
  obtain ⟨e, hscans, -⟩ := h.ahead
  have hrest : rest = [] := by
    cases hscans with
    | refl => rfl
    | step head => cases hend.symm.trans head
  subst hrest
  have hnil : m.finish.cursor.rest = [] := skipBlanks_rest_eq_nil hend
  obtain ⟨-, read, hread⟩ := Cursor.standsIn_iff.mp h.standsIn
  have hle : m.cursor.position.offset ≤ m.finish.cursor.position.offset :=
    hread.offset_le (hread.skipWhile Text.isBlank)
  have hnone : scan m.finish.table m.finish.cursor = none := by
    rw [scan_eq_none, hnil]
    exact nofun
  refine ⟨⟨h.split, ⟨_, .refl _, hnone⟩, h.table_eq, h.sink_eq,
    h.standsIn.skipWhile Text.isBlank, Nat.le_trans h.offset_le hle,
    fun f hf => Nat.le_trans (h.passed f hf) hle⟩, ?_⟩
  rw [Cursor.isEnd, hnil]
  rfl

/-- A request passes everything up to the next lexeme, or all that is ahead when there is no
lexeme in it. -/
theorem next_advanced (ht : l.table.Obtained) (hc : l.cursor.StandsIn source)
    (h : l.Ahead fs) :
    ∃ done rest, Advanced source l fs l.next.2 done rest ∧
      done.filterMap Finding.lexeme? = l.next.1.toList ∧
      (l.next.1 = none → rest = []) ∧ l.next.2.StandsBehind l.next.1 := by
  obtain ⟨-, read, hread⟩ := Cursor.standsIn_iff.mp hc
  rw [next]
  rcases nextWithin_becomes ht hread (Nat.lt_succ_self _) with
    ⟨us, x, m, hnext, hm⟩ | ⟨us, m, hnext, hm, hend⟩
  · obtain ⟨rest, hadvanced⟩ := hm.advanced ht hc h
    rw [hnext]
    refine ⟨_, rest, hadvanced, ?_, fun h => absurd h (Option.some_ne_none x),
      hm.scans.last_stop.symm⟩
    rw [List.filterMap_append, Finding.filterMap_lexeme?_unrecognized]
    rfl
  · obtain ⟨rest, hadvanced⟩ := hm.advanced ht hc h
    obtain ⟨hfinished, hisEnd⟩ := hadvanced.finish hend
    rw [hnext]
    exact ⟨_, [], hfinished, Finding.filterMap_lexeme?_unrecognized us, fun _ => rfl, hisEnd⟩

theorem pull_succ (requests : Nat) (l : Lexer) :
    pull (requests + 1) l =
      (l.next.1 :: (pull requests l.next.2).1, (pull requests l.next.2).2) := rfl

/-- At the end of the text nothing more comes and nothing changes. -/
theorem next_of_isEnd (h : l.cursor.isEnd = true) : l.next = (none, l) := by
  have hnil : l.cursor.rest = [] := List.isEmpty_iff.mp h
  have hnone : scan l.table l.cursor = none := by
    rw [scan_eq_none, hnil]
    exact nofun
  rw [next, nextWithin, hnone]
  dsimp only
  rw [skipBlanks_eq_self hnil]

theorem pull_of_isEnd (h : l.cursor.isEnd = true) (requests : Nat) :
    l.pull requests = (List.replicate requests none, l) := by
  induction requests with
  | zero => rfl
  | succ requests ih =>
    rw [pull_succ, next_of_isEnd h, ih, List.replicate_succ]

/-- The answers to a number of requests are the first lexemes ahead, and none for each request
behind the last of them.  The induction is on the requests, and the first of them says what is
ahead of the others. -/
theorem pull_advanced (ht : l.table.Obtained) (hc : l.cursor.StandsIn source)
    (h : l.Ahead fs) (requests : Nat) :
    ∃ done rest, Advanced source l fs (pull requests l).2 done rest ∧
      (pull requests l).1 =
        (List.range requests).map (fun i => (fs.filterMap Finding.lexeme?)[i]?) ∧
      rest.filterMap Finding.lexeme? = (fs.filterMap Finding.lexeme?).drop requests ∧
      (∀ a ∈ (pull requests l).1.getLast?, (pull requests l).2.StandsBehind a) ∧
      (none ∈ (pull requests l).1 → (pull requests l).2.cursor.isEnd = true) := by
  induction requests generalizing l fs with
  | zero => exact ⟨[], fs, .refl hc h, rfl, rfl, nofun, nofun⟩
  | succ requests ih =>
    obtain ⟨done, rest, hfirst, hlexemes, hrest, hbehind⟩ := next_advanced ht hc h
    obtain ⟨done', rest', hothers, hanswers, hleft, hlast, hend⟩ :=
      ih (hfirst.table_eq ▸ ht) hfirst.standsIn hfirst.ahead
    have hsplit : fs.filterMap Finding.lexeme? =
        l.next.1.toList ++ rest.filterMap Finding.lexeme? := by
      rw [hfirst.split, List.filterMap_append, hlexemes]
    rw [pull_succ]
    refine ⟨done ++ done', rest', hfirst.trans hothers, ?_, ?_, ?_, ?_⟩
    · rw [hanswers, hsplit, List.range_succ_eq_map]
      cases hnext : l.next.1 with
      | none => simp [hrest hnext, Function.comp_def]
      | some x => simp [Function.comp_def]
    · rw [hleft, hsplit]
      cases hnext : l.next.1 with
      | none => simp [hrest hnext]
      | some x => rfl
    · -- with one request its answer is the last one, otherwise the others have a last one
      intro a ha
      cases requests with
      | zero =>
        cases ha
        exact hbehind
      | succ requests =>
        refine hlast a ?_
        rw [pull_succ] at ha ⊢
        rwa [List.getLast?_cons_cons] at ha
    · intro hmem
      rcases List.mem_cons.mp hmem with hnone | hmem
      · rw [← hnone] at hbehind
        show (pull requests l.next.2).2.cursor.isEnd = true
        rw [pull_of_isEnd hbehind]
        exact hbehind
      · exact hend hmem

theorem exists_ahead (ht : l.table.Obtained) (hc : l.cursor.StandsIn source) :
    ∃ fs, l.Ahead fs := by
  obtain ⟨-, read, hread⟩ := Cursor.standsIn_iff.mp hc
  obtain ⟨fs, m, -, hm, hend⟩ := drainWithin_becomes ht hread (Nat.lt_succ_self _)
  exact ⟨fs, m.cursor, hm.scans, hm.table_eq ▸ hend⟩

/-- Draining passes all that is ahead. -/
theorem drain_advanced (ht : l.table.Obtained) (hc : l.cursor.StandsIn source)
    (h : l.Ahead fs) :
    ∃ m, l.drain = (fs.filterMap Finding.lexeme?, m) ∧ Advanced source l fs m fs [] ∧
      m.cursor.isEnd = true := by
  obtain ⟨-, read, hread⟩ := Cursor.standsIn_iff.mp hc
  obtain ⟨done, m, hdrain, hm, hend⟩ := drainWithin_becomes ht hread (Nat.lt_succ_self _)
  obtain ⟨rest, hadvanced⟩ := hm.advanced ht hc h
  obtain ⟨hfinished, hisEnd⟩ := hadvanced.finish hend
  have hdone : fs = done := by rw [hfinished.split, List.append_nil]
  subst hdone
  exact ⟨m.finish, hdrain, hfinished, hisEnd⟩

/-- What is ahead ends behind the cursor. -/
theorem Ahead.offset_lt (ht : l.table.Obtained) (hc : l.cursor.StandsIn source)
    (h : l.Ahead fs) : ∀ f ∈ fs, l.cursor.position.offset < f.span.stop.offset := by
  obtain ⟨-, read, hread⟩ := Cursor.standsIn_iff.mp hc
  obtain ⟨e, hscans, hend⟩ := h
  intro f hf
  obtain ⟨hle, hlt⟩ := (hscans.segmented ht hread hend).start_lt_stop hf
  rw [hread.position_eq, Position.behind_offset]
  omega

/-- The reports of what the lexer has passed are those that end in front of its cursor, and
the others are still to come. -/
theorem Advanced.reports_eq (ht : m.table.Obtained) (h : Advanced source l fs m done rest) :
    (fs.filterMap Finding.unrecognized?).filter
        (fun u => u.span.stop.offset ≤ m.cursor.position.offset) =
      done.filterMap Finding.unrecognized? ∧
    (fs.filterMap Finding.unrecognized?).filter
        (fun u => m.cursor.position.offset < u.span.stop.offset) =
      rest.filterMap Finding.unrecognized? := by
  have hpassed : ∀ u ∈ done.filterMap Finding.unrecognized?,
      u.span.stop.offset ≤ m.cursor.position.offset :=
    fun u hu => h.passed _ (Finding.mem_filterMap_unrecognized?.mp hu)
  have hahead : ∀ u ∈ rest.filterMap Finding.unrecognized?,
      m.cursor.position.offset < u.span.stop.offset :=
    fun u hu => h.ahead.offset_lt ht h.standsIn _ (Finding.mem_filterMap_unrecognized?.mp hu)
  rw [h.split, List.filterMap_append, List.filter_append, List.filter_append]
  constructor
  · rw [List.filter_eq_self.mpr fun u hu => decide_eq_true (hpassed u hu),
      List.filter_eq_nil_iff.mpr fun u hu => by simpa using hahead u hu, List.append_nil]
  · rw [List.filter_eq_self.mpr fun u hu => decide_eq_true (hahead u hu),
      List.filter_eq_nil_iff.mpr fun u hu => by simpa using hpassed u hu, List.nil_append]

theorem tokenize_of_ahead {table : SymbolTable} (ht : table.Obtained) {text : String}
    (h : (ofText table text (.collect [])).Ahead fs) :
    tokenize table text =
      (fs.filterMap Finding.lexeme?, fs.filterMap Finding.unrecognized?) := by
  obtain ⟨m, hdrain, hm, -⟩ := drain_advanced ht (Cursor.standsIn_ofText text.toList) h
  have hsink : m.sink = .collect (fs.filterMap Finding.unrecognized?) :=
    hm.sink_eq.trans (foldl_report_collect _ [])
  rw [tokenize, hdrain]
  dsimp only
  rw [hsink]
  rfl

/-- The lexers read the same text with the same table and have come equally far in it. -/
structure Together (l m : Lexer) : Prop where
  table_eq : l.table = m.table
  cursor_eq : l.cursor = m.cursor

namespace Together

theorem nextWithin (h : l.Together m) (steps : Nat) :
    (nextWithin steps l).1 = (nextWithin steps m).1 ∧
      (nextWithin steps l).2.Together (nextWithin steps m).2 := by
  induction steps generalizing l m with
  | zero => exact ⟨rfl, h⟩
  | succ steps ih =>
    rw [Lexer.nextWithin, Lexer.nextWithin, ← h.table_eq, ← h.cursor_eq]
    cases scan l.table l.cursor with
    | none => exact ⟨rfl, rfl, rfl⟩
    | some found =>
      obtain ⟨f, stop⟩ := found
      cases f with
      | lexeme x => exact ⟨rfl, h.table_eq, rfl⟩
      | unrecognized u => exact ih ⟨h.table_eq, rfl⟩

theorem next (h : l.Together m) : l.next.1 = m.next.1 ∧ l.next.2.Together m.next.2 := by
  rw [Lexer.next, Lexer.next, h.cursor_eq]
  exact h.nextWithin _

theorem pull (h : l.Together m) (requests : Nat) :
    (pull requests l).1 = (pull requests m).1 ∧
      (pull requests l).2.Together (pull requests m).2 := by
  induction requests generalizing l m with
  | zero => exact ⟨rfl, h⟩
  | succ requests ih =>
    obtain ⟨hfirst, htogether⟩ := h.next
    obtain ⟨hothers, hlast⟩ := ih htogether
    rw [pull_succ, pull_succ, hfirst, hothers]
    exact ⟨rfl, hlast⟩

end Together

/-- What a number of requests has made of a lexer of the text whose sink held `held` before:
its answers, its reports and what it still has to give are those of the text taken at once. -/
structure Pulled (table : SymbolTable) (text : String) (held : List Unrecognized)
    (requests : Nat) (answers : List (Option Lexeme)) (l : Lexer) : Prop where
  answers_eq : answers = (List.range requests).map fun i => (tokenize table text).1[i]?
  sink_eq : l.sink = .collect (held ++ (tokenize table text).2.filter
    fun u => u.span.stop.offset ≤ l.cursor.position.offset)
  reports_eq : (tokenize table text).2 =
    ((tokenize table text).2.filter fun u => u.span.stop.offset ≤ l.cursor.position.offset) ++
      (tokenize table text).2.filter fun u => l.cursor.position.offset < u.span.stop.offset
  standsIn : l.cursor.StandsIn text.toList
  standsBehind : ∀ a ∈ answers.getLast?, l.StandsBehind a
  drained : ∃ m, l.drain = ((tokenize table text).1.drop requests, m) ∧
    m.sink = .collect (held ++ (tokenize table text).2) ∧ m.cursor.isEnd = true
  exhausted : none ∈ answers → ∀ more, l.pull more = (List.replicate more none, l)

end Lexer

/-- Lexemes asked for one by one, any number of them, are those that the text taken at once
has, and a lexer that collects its reports has those that end in front of its cursor.  The
sink is without influence on the lexemes and the cursor. -/
theorem pull_ofText_agrees {table : SymbolTable} (ht : table.Obtained) (text : String)
    (requests : Nat) :
    (∀ held, Lexer.Pulled table text held requests
      ((Lexer.ofText table text (.collect held)).pull requests).1
      ((Lexer.ofText table text (.collect held)).pull requests).2) ∧
    ∀ sink sink',
      ((Lexer.ofText table text sink).pull requests).1 =
        ((Lexer.ofText table text sink').pull requests).1 ∧
      ((Lexer.ofText table text sink).pull requests).2.cursor =
        ((Lexer.ofText table text sink').pull requests).2.cursor := by
  have hstands := Cursor.standsIn_ofText text.toList
  refine ⟨fun held => ?_, fun sink sink' => ?_⟩
  · obtain ⟨fs, hahead⟩ :=
      Lexer.exists_ahead (l := Lexer.ofText table text (.collect held)) ht hstands
    have htokens := Lexer.tokenize_of_ahead ht hahead
    obtain ⟨done, rest, hpulled, hanswers, hleft, hbehind, hend⟩ :=
      Lexer.pull_advanced ht hstands hahead requests
    have hlexer : ((Lexer.ofText table text (.collect held)).pull requests).2.table.Obtained :=
      hpulled.table_eq ▸ ht
    obtain ⟨m, hdrain, hm, hmend⟩ := Lexer.drain_advanced hlexer hpulled.standsIn hpulled.ahead
    obtain ⟨hpassed, hahead'⟩ := hpulled.reports_eq hlexer
    have hsink : ((Lexer.ofText table text (.collect held)).pull requests).2.sink =
        .collect (held ++ done.filterMap Finding.unrecognized?) :=
      hpulled.sink_eq.trans (foldl_report_collect _ held)
    have hreports : fs.filterMap Finding.unrecognized? =
        done.filterMap Finding.unrecognized? ++ rest.filterMap Finding.unrecognized? := by
      rw [hpulled.split, List.filterMap_append]
    constructor
    case answers_eq => rw [htokens, hanswers]
    case sink_eq => rw [htokens, hpassed, hsink]
    case reports_eq => rw [htokens, hpassed, hahead', hreports]
    case standsIn => exact hpulled.standsIn
    case standsBehind => exact hbehind
    case drained =>
      refine ⟨m, by rw [hdrain, hleft, htokens], ?_, hmend⟩
      rw [hm.sink_eq, hsink, foldl_report_collect, List.append_assoc, ← hreports, htokens]
    case exhausted => exact fun hnone => Lexer.pull_of_isEnd (hend hnone)
  · have htogether : (Lexer.ofText table text sink).Together (Lexer.ofText table text sink') :=
      ⟨rfl, rfl⟩
    obtain ⟨hanswers, hlast⟩ := htogether.pull requests
    exact ⟨hanswers, hlast.cursor_eq⟩

/-- With the second lexeme the text before it has been reported and the text behind it has
not. -/
theorem pull_ofText_agrees_between :
    SymbolTable.default.Obtained ∧
      ((Lexer.ofText .default "1 ~ 2 ?" (.collect [])).pull 2).1 =
        [some ⟨⟨⟨0, 1, 1⟩, ⟨1, 1, 2⟩⟩, [.int 1]⟩, some ⟨⟨⟨4, 1, 5⟩, ⟨5, 1, 6⟩⟩, [.int 2]⟩] ∧
      ((Lexer.ofText .default "1 ~ 2 ?" (.collect [])).pull 2).2.sink =
        .collect [⟨"~", ⟨⟨2, 1, 3⟩, ⟨3, 1, 4⟩⟩⟩] ∧
      ∃ m, ((Lexer.ofText .default "1 ~ 2 ?" (.collect [])).pull 2).2.drain = ([], m) ∧
        m.sink = .collect [⟨"~", ⟨⟨2, 1, 3⟩, ⟨3, 1, 4⟩⟩⟩, ⟨"?", ⟨⟨6, 1, 7⟩, ⟨7, 1, 8⟩⟩⟩] ∧
        m.cursor.isEnd = true := by
  have htokens : tokenize SymbolTable.default "1 ~ 2 ?" =
      ([⟨⟨⟨0, 1, 1⟩, ⟨1, 1, 2⟩⟩, [.int 1]⟩, ⟨⟨⟨4, 1, 5⟩, ⟨5, 1, 6⟩⟩, [.int 2]⟩],
        [⟨"~", ⟨⟨2, 1, 3⟩, ⟨3, 1, 4⟩⟩⟩, ⟨"?", ⟨⟨6, 1, 7⟩, ⟨7, 1, 8⟩⟩⟩]) := by
    decide +kernel
  have hoffset : ((Lexer.ofText .default "1 ~ 2 ?" (.collect [])).pull
      2).2.cursor.position.offset = 5 := by
    decide +kernel
  have h := (pull_ofText_agrees .default "1 ~ 2 ?" 2).1 []
  have hanswers := h.answers_eq
  have hsink := h.sink_eq
  have hdrained := h.drained
  rw [htokens] at hanswers hsink hdrained
  rw [hoffset] at hsink
  exact ⟨.default, hanswers, hsink, hdrained⟩

end QueryExpr
