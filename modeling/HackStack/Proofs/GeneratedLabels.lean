import HackStack.Proofs.CommandCode
import HackStack.Proofs.History
import HackStack.Proofs.Symbols
/-!
# Generated labels

The code of a comparison and of a call declares labels of its own and loads each of
them once. `Labels` lists the labels of the commands of a session: the counters make
them one pair for every comparison and one for every call.

`session_labels`: after any sequence of requests the generated labels are these, they
are written differently, and each is loaded by one line of the same piece.
-/

namespace HackStack

/-! ## Labels and loads -/

namespace Line

/-- The symbol a line declares. -/
def label? : Line → Option Symbol
  | label s => some s
  | _ => none

/-- The symbol a line loads. -/
def load? : Line → Option Symbol
  | symbol s => some s
  | _ => none

theorem label?_eq_some {l : Line} {s : Symbol} : l.label? = some s ↔ l = .label s := by
  cases l <;> simp [label?]

theorem load?_eq_some {l : Line} {s : Symbol} : l.load? = some s ↔ l = .symbol s := by
  cases l <;> simp [load?]

end Line

/-- The generated labels the lines declare, in order. -/
def generatedLabels (ls : List Line) : List Symbol := (ls.filterMap Line.label?).filter Symbol.generated

/-- The generated labels the lines load, in order. -/
def generatedLoads (ls : List Line) : List Symbol := (ls.filterMap Line.load?).filter Symbol.generated

theorem mem_generatedLabels {ls : List Line} {s : Symbol} :
    s ∈ generatedLabels ls ↔ .label s ∈ ls ∧ s.generated := by
  simp [generatedLabels, List.mem_filterMap, Line.label?_eq_some]

theorem mem_generatedLoads {ls : List Line} {s : Symbol} :
    s ∈ generatedLoads ls ↔ .symbol s ∈ ls ∧ s.generated := by
  simp [generatedLoads, List.mem_filterMap, Line.load?_eq_some]

theorem generatedLabels_append (ls ls' : List Line) :
    generatedLabels (ls ++ ls') = generatedLabels ls ++ generatedLabels ls' := by
  simp [generatedLabels]

theorem generatedLoads_append (ls ls' : List Line) :
    generatedLoads (ls ++ ls') = generatedLoads ls ++ generatedLoads ls' := by
  simp [generatedLoads]

namespace Piece

/-- The labels that the code of a piece brings along. -/
def generated : Piece → List Symbol
  | command _ n (.operate (.compare c)) => [.holds c (n.get c), .done c (n.get c)]
  | command _ n (.call callee _) => [.returnSite callee n.call]
  | _ => []

/-- The command of a piece. -/
def command? : Piece → Option Command
  | start => none
  | command _ _ c => some c

end Piece

/-! ### The code of one piece -/

theorem Segment.place_generated (unit : String) (i : UInt16) (s : Segment) :
    (generatedLabels (s.place unit i).pushCode = [] ∧ generatedLoads (s.place unit i).pushCode = []) ∧
      generatedLabels (s.place unit i).popCode = [] ∧ generatedLoads (s.place unit i).popCode = [] := by
  cases s
  case pointer => by_cases hi : i = 0 <;> simp only [place, hi, if_true, if_false] <;> exact ⟨⟨rfl, rfl⟩, rfl, rfl⟩
  all_goals exact ⟨⟨rfl, rfl⟩, rfl, rfl⟩

theorem functionCode_generated (name : String) (locals : UInt16) :
    generatedLabels (functionCode name locals) = [] ∧ generatedLoads (functionCode name locals) = [] := by
  simp only [List.eq_nil_iff_forall_not_mem, mem_generatedLabels, mem_generatedLoads]
  refine ⟨fun s hs => ?_, fun s hs => ?_⟩ <;> rcases mem_functionCode hs.1 with he | hm
  · cases he; cases hs.2
  · simp [pushZero] at hm
  · cases he
  · simp [pushZero] at hm; cases hm; cases hs.2

/-- A command declares its generated labels in the order in which it loads them. -/
theorem Command.code_generated (unit : String) (n : Counters) (c : Command) :
    generatedLabels (c.code unit n) = Piece.generated (.command unit n c) ∧
      generatedLoads (c.code unit n) = Piece.generated (.command unit n c) := by
  cases c with
  | push s i => exact (s.place_generated unit i).1
  | pop s i => exact (s.place_generated unit i).2
  | function name locals => exact functionCode_generated name locals
  | operate op => cases op <;> exact ⟨rfl, rfl⟩
  | _ => exact ⟨rfl, rfl⟩

theorem Piece.lines_generated (echo : Bool) (p : Piece) :
    generatedLabels (p.lines echo) = p.generated ∧ generatedLoads (p.lines echo) = p.generated := by
  have hcode : generatedLabels p.code = p.generated ∧ generatedLoads p.code = p.generated := by
    cases p with
    | start => exact ⟨rfl, rfl⟩
    | command unit n c => exact c.code_generated unit n
  cases echo <;> exact hcode

/-! ## The labels of some commands -/

/-- How many comparisons of a kind there are. -/
def comparisons (c : Comparison) (cs : List Command) : Nat := cs.count (.operate (.compare c))

/-- The functions that are called, in order. -/
def callees (cs : List Command) : List String :=
  cs.filterMap fun
    | .call name _ => some name
    | _ => none

/-- The labels of `k` comparisons of a kind, numbered from `i`. -/
def comparisonLabels (c : Comparison) (i k : Nat) : List Symbol :=
  (List.range' i k).flatMap fun j => [.holds c j, .done c j]

/-- The labels of some calls, numbered from `i`. -/
def returnLabels (i : Nat) (callees : List String) : List Symbol :=
  (callees.zipIdx i).map fun (callee, j) => .returnSite callee j

/-- The labels of some commands, where the counters start at `n`. -/
def labelsFrom (n : Counters) (cs : List Command) : List Symbol :=
  comparisonLabels .eq n.eq (comparisons .eq cs) ++ comparisonLabels .gt n.gt (comparisons .gt cs) ++
    comparisonLabels .lt n.lt (comparisons .lt cs) ++ returnLabels n.call (callees cs)

theorem comparisonLabels_succ (c : Comparison) (i k : Nat) :
    comparisonLabels c i (k + 1) = [.holds c i, .done c i] ++ comparisonLabels c (i + 1) k := by
  rw [comparisonLabels, List.range'_succ]
  rfl

theorem comparisons_cons (c k : Comparison) (cs : List Command) :
    comparisons c (.operate (.compare k) :: cs) = comparisons c cs + if k = c then 1 else 0 := by
  simp [comparisons, List.count_cons]

/-- The labels of one more command in front. -/
theorem labelsFrom_cons (unit : String) (n : Counters) (c : Command) (cs : List Command) :
    (Piece.generated (.command unit n c) ++ labelsFrom (n.after c) cs).Perm (labelsFrom n (c :: cs)) := by
  -- the new labels go in front of those of their kind, so only the counts are compared
  rw [List.perm_iff_count]
  intro s
  cases c with
  | operate op =>
    cases op with
    | compare k =>
      cases k <;> simp [labelsFrom, Piece.generated, Counters.after, Counters.next, Counters.get, comparisons_cons,
        comparisonLabels_succ, callees, List.count_cons] <;> omega
    | _ => simp [labelsFrom, Piece.generated, Counters.after, comparisons, callees]
  | call name args =>
    simp [labelsFrom, Piece.generated, Counters.after, comparisons, callees, returnLabels, List.count_cons]
    omega
  | _ => simp [labelsFrom, Piece.generated, Counters.after, comparisons, callees]

/-! ### They are written differently -/

theorem eq_of_mem_comparisonLabels {s : Symbol} {c : Comparison} {i k : Nat} (h : s ∈ comparisonLabels c i k) :
    ∃ j, s = .holds c j ∨ s = .done c j := by
  obtain ⟨j, -, hj⟩ := List.mem_flatMap.1 h
  exact ⟨j, by simpa using hj⟩

theorem eq_of_mem_returnLabels {s : Symbol} {i : Nat} {names : List String} (h : s ∈ returnLabels i names) :
    ∃ name j, s = .returnSite name j := by
  obtain ⟨⟨name, j⟩, -, rfl⟩ := List.mem_map.1 h
  exact ⟨name, j, rfl⟩

theorem generated_of_mem {s : Symbol} {n : Counters} {cs : List Command} (h : s ∈ labelsFrom n cs) : s.generated := by
  have hc {c : Comparison} {i k : Nat} (hs : s ∈ comparisonLabels c i k) : s.generated := by
    obtain ⟨j, rfl | rfl⟩ := eq_of_mem_comparisonLabels hs <;> rfl
  simp only [labelsFrom, List.mem_append] at h
  rcases h with ((h | h) | h) | h
  · exact hc h
  · exact hc h
  · exact hc h
  · obtain ⟨name, j, rfl⟩ := eq_of_mem_returnLabels h
    rfl

theorem nodup_comparisonLabels (c : Comparison) (i k : Nat) : (comparisonLabels c i k).Nodup := by
  rw [comparisonLabels, List.nodup_flatMap]
  refine ⟨fun j _ => by simp, List.Pairwise.imp ?_ List.nodup_range'⟩
  intro j j' hne
  simp [Function.onFun, List.Disjoint, hne]

theorem nodup_returnLabels (i : Nat) (names : List String) : (returnLabels i names).Nodup := by
  have hn : ((names.zipIdx i).map Prod.snd).Nodup := by
    rw [List.zipIdx_map_snd]
    exact List.nodup_range'
  refine (List.Nodup.of_map _ hn).map_on ?_
  rintro ⟨a, j⟩ - ⟨b, k⟩ - h
  simpa using h

theorem nodup_labelsFrom (n : Counters) (cs : List Command) : (labelsFrom n cs).Nodup := by
  have hcc {c c' : Comparison} {i k i' k' : Nat} (hne : c ≠ c') :
      ∀ s ∈ comparisonLabels c i k, ∀ t ∈ comparisonLabels c' i' k', s ≠ t := by
    intro s hs t ht he
    obtain ⟨j, rfl | rfl⟩ := eq_of_mem_comparisonLabels hs <;> obtain ⟨j', h | h⟩ := eq_of_mem_comparisonLabels ht <;>
      simp_all
  have hcr {c : Comparison} {i k i' : Nat} {names : List String} :
      ∀ s ∈ comparisonLabels c i k, ∀ t ∈ returnLabels i' names, s ≠ t := by
    intro s hs t ht he
    obtain ⟨name, j', rfl⟩ := eq_of_mem_returnLabels ht
    obtain ⟨j, h | h⟩ := eq_of_mem_comparisonLabels hs <;> simp_all
  simp only [labelsFrom, List.nodup_append, List.forall_mem_append]
  exact ⟨⟨⟨nodup_comparisonLabels .., nodup_comparisonLabels .., hcc (by decide)⟩, nodup_comparisonLabels ..,
    hcc (by decide), hcc (by decide)⟩, nodup_returnLabels .., ⟨hcr, hcr⟩, hcr⟩

/-- Generated labels are written differently, whatever functions are called. -/
theorem nodup_text_labelsFrom (n : Counters) (cs : List Command) : ((labelsFrom n cs).map Symbol.text).Nodup :=
  (nodup_labelsFrom n cs).map_on fun _ hs _ ht =>
    Symbol.generated_text_inj (generated_of_mem hs) (generated_of_mem ht)

/-! ## The labels of a session -/

/-- Counting on from `n`. -/
def Counters.count (n : Counters) (cs : List Command) : Counters where
  eq := n.eq + comparisons .eq cs
  gt := n.gt + comparisons .gt cs
  lt := n.lt + comparisons .lt cs
  call := n.call + (callees cs).length

theorem Counters.count_cons (n : Counters) (c : Command) (cs : List Command) :
    n.count (c :: cs) = (n.after c).count cs := by
  cases c with
  | operate op =>
    cases op with
    | compare k =>
      cases k <;> simp [count, after, next, comparisons_cons, callees] <;> omega
    | _ => simp [count, after, comparisons, callees]
  | call name args => simp [count, after, comparisons, callees]; omega
  | _ => simp [count, after, comparisons, callees]

namespace Piece

theorem foldl_after (n : Counters) (ps : List Piece) : ps.foldl after n = n.count (ps.filterMap command?) := by
  induction ps generalizing n with
  | nil => rfl
  | cons p ps ih =>
    cases p with
    | start => exact ih n
    | command unit m c => exact (ih (n.after c)).trans (n.count_cons c _).symm

/-- The generated labels of pieces that carry the right counters. -/
theorem Numbered.generated_perm {n : Counters} {ps : List Piece} (h : Numbered n ps) :
    (ps.flatMap generated).Perm (labelsFrom n (ps.filterMap command?)) := by
  induction ps generalizing n with
  | nil => rfl
  | cons p ps ih =>
    cases p with
    | start => exact ih h
    | command unit m c =>
      obtain ⟨rfl, h⟩ := h
      exact ((ih h).append_left _).trans (labelsFrom_cons unit m c _)

theorem filterMap_command?_number (n : Counters) (cs : List (String × Command)) :
    (number n cs).filterMap command? = cs.map Prod.snd := by
  induction cs generalizing n with
  | nil => rfl
  | cons c cs ih => simp [number, command?, ih]

end Piece

theorem Emitter.history_commands (e : Emitter) (rs : List Request) :
    (e.history rs).filterMap Piece.command? = rs.flatMap Request.accepted := by
  induction rs generalizing e with
  | nil => rfl
  | cons r rs ih =>
    rw [history, List.filterMap_append, ih, List.flatMap_cons, written, List.filterMap_append,
      Piece.filterMap_command?_number]
    split <;> simp [Piece.command?]

theorem flatMap_lines_generated (echo : Bool) (ps : List Piece) :
    generatedLabels (ps.flatMap (Piece.lines echo)) = ps.flatMap Piece.generated ∧
      generatedLoads (ps.flatMap (Piece.lines echo)) = ps.flatMap Piece.generated := by
  induction ps with
  | nil => exact ⟨rfl, rfl⟩
  | cons p ps ih =>
    simp only [List.flatMap_cons, generatedLabels_append, generatedLoads_append, ih, (p.lines_generated echo).1,
      (p.lines_generated echo).2, and_self]

/-- After any sequence of requests to a new emitter, the counters count the comparisons and the calls that were
emitted, and the labels that their code brings along are numbered from zero. These are written differently, and
each of them is loaded by one of the lines made for it, in the piece that declares it. -/
theorem session_labels (echo : Bool) (rs : List Request) :
    let e := ({ echo } : Emitter).session rs
    let ps := ({ echo } : Emitter).history rs
    let cs := rs.flatMap Request.accepted
    let labels := labelsFrom {} cs
    e.counters = ⟨comparisons .eq cs, comparisons .gt cs, comparisons .lt cs, (callees cs).length⟩ ∧
    e.lines.toList = ps.flatMap (Piece.lines echo) ∧
    (generatedLabels e.lines.toList).Perm labels ∧
    (generatedLoads e.lines.toList).Perm labels ∧
    (labels.map Symbol.text).Nodup ∧
    ∀ p ∈ ps, generatedLabels (p.lines echo) = generatedLoads (p.lines echo) := by
  intro e ps cs labels
  have hw : Emitter.Wrote { echo } e ps := Emitter.session_wrote _ rs
  have hlines : e.lines.toList = ps.flatMap (Piece.lines echo) := hw.lines
  have hcs : ps.filterMap Piece.command? = cs := Emitter.history_commands _ rs
  have hperm : (ps.flatMap Piece.generated).Perm (labelsFrom {} (ps.filterMap Piece.command?)) :=
    (Emitter.history_numbered { echo } rs).generated_perm
  rw [hcs] at hperm
  have hcounters : e.counters = Counters.count {} cs := by rw [hw.counters, Piece.foldl_after, hcs]
  obtain ⟨hlabel, hload⟩ := flatMap_lines_generated echo ps
  refine ⟨by simpa [Counters.count] using hcounters, hlines, ?_, ?_, nodup_text_labelsFrom _ _, fun p _ => ?_⟩
  · rw [hlines, hlabel]; exact hperm
  · rw [hlines, hload]; exact hperm
  · rw [(p.lines_generated echo).1, (p.lines_generated echo).2]

end HackStack
