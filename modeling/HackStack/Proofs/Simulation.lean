import HackStack.Proofs.Readable
import HackStack.Proofs.StaticCells
/-!
# Compiled programs run

The stack machine goes through the pieces of a program, and the processor through
the blocks of its image. `sim_step` and `sim_run`: what the stack machine does in
one step, and in any number of steps, the processor does in finitely many.

`compile_simulates`: the text of a program that is linked in itself assembles, and
its image does on every memory what the program means.
-/

namespace HackStack

/-! ## The stack machine over a program -/

/-- The piece at which control goes on behind the `k`-th one. A return goes to a piece whose block
starts at the return address. -/
def Target.piece? (ps : List Piece) (k : Nat) : Target → Option Nat
  | .next => some (k + 1)
  | .entry name => ps.findIdx? (·.declares? == some name)
  | .address w => (List.range (ps.length + 1)).find? (blockStart ps · == w.address.toNat)

/-- The instruction at which control goes on behind the `k`-th piece. -/
def Target.pc (ps : List Piece) (k : Nat) : Target → Nat
  | .next => blockStart ps (k + 1)
  | .entry name => blockStart ps (ps.findIdx (·.declares? == some name))
  | .address w => w.address.toNat

/-- The stack machine between two pieces: the number of the next one, and the memory. -/
structure Point where
  piece : Nat
  ram : Ram

namespace Point

/-- One step of the stack machine. -/
def step? (cells : String → UInt16 → Word) (ps : List Piece) (x : Point) : Option Point :=
  match ps[x.piece]? with
  | none => none
  | some p =>
    let e := p.run cells (BitVec.ofNat 16 (blockStart ps (x.piece + 1))) x.ram
    (e.2.piece? ps x.piece).map fun k => ⟨k, e.1⟩

/-- A number of steps of the stack machine. -/
def run? (cells : String → UInt16 → Word) (ps : List Piece) : Nat → Point → Option Point
  | 0, x => some x
  | n + 1, x => (x.step? cells ps).bind (run? cells ps n)

/-- The processor stands in front of the block of the piece with the same memory. -/
def At (ps : List Piece) (x : Point) (s : Cpu) : Prop := s.pc = blockStart ps x.piece ∧ s.data.ram = x.ram

end Point

theorem Target.pc_of_piece? {ps : List Piece} {k j : Nat} {t : Target} (h : t.piece? ps k = some j) :
    t.pc ps k = blockStart ps j := by
  cases t with
  | next => cases h; rfl
  | entry name => rw [pc, (List.findIdx?_eq_some_iff_findIdx_eq.1 h).2]
  | address w =>
    have hf := List.find?_some (p := fun i => blockStart ps i == w.address.toNat) h
    exact (beq_iff_eq.1 hf).symm

/-! ## Simulation -/

/-- Each name that a piece goes to is declared by a piece. -/
def Closed (ps : List Piece) : Prop :=
  ∀ p ∈ ps, ∀ name ∈ p.mentions?, ∃ q ∈ ps, q.declares? = some name

theorem Piece.run_entry {cells : String → UInt16 → Word} {back : Word} {r : Ram} {p : Piece} {name : String}
    (h : (p.run cells back r).2 = .entry name) : p.mentions? = some name := by
  cases p with
  | start => cases h
  | command unit n c =>
    cases c with
    | goto | call => cases h; rfl
    | ifGoto =>
      simp only [run, Command.run] at h
      split at h
      · cases h
      · cases h; rfl
    | _ => cases h

namespace Image.Hosts
variable {img : Image} {ps : List Piece} (h : img.Hosts ps) (hc : Closed ps)
include h hc

/-- Behind a block the processor stands where the stack machine goes on. -/
theorem goto_target {k : Nat} {p : Piece} (hk : ps[k]? = some p) {cells : String → UInt16 → Word} {back : Word}
    {r : Ram} : img.goto (blockStart ps (k + 1)) (p.run cells back r).2 = (p.run cells back r).2.pc ps k := by
  cases ht : (p.run cells back r).2 with
  | next => rfl
  | address w => rfl
  | entry name =>
    obtain ⟨q, hq, hn⟩ := hc p (List.mem_of_getElem? hk) name (Piece.run_entry ht)
    have hlt : ps.findIdx (·.declares? == some name) < ps.length :=
      List.findIdx_lt_length_of_exists ⟨q, hq, by simp [hn]⟩
    have hd := List.findIdx_getElem (w := hlt)
    exact h.goto_entry (List.getElem?_eq_getElem hlt) (beq_iff_eq.1 hd) _

/-- Passing the block of a piece. -/
theorem run_piece {k : Nat} {p : Piece} (hk : ps[k]? = some p) (r : Ram) (a d : Word) :
    ∃ n a' d', Cpu.run img.rom n ⟨blockStart ps k, a, d, r⟩ =
      ⟨(p.run img.cells (BitVec.ofNat 16 (blockStart ps (k + 1))) r).2.pc ps k, a', d',
        (p.run img.cells (BitVec.ofNat 16 (blockStart ps (k + 1))) r).1⟩ := by
  obtain ⟨a', d', hp⟩ := h.pass_piece hk r a d
  obtain ⟨n, hn⟩ := Cpu.pass_eq_run img.rom (blockStart ps (k + 1)) ⟨blockStart ps k, a, d, r⟩
  exact ⟨n, a', d', by rw [← hn, hp, h.goto_target hc hk]⟩

theorem sim_step {x x' : Point} (hx : x.step? img.cells ps = some x') {s : Cpu} (hs : x.At ps s) :
    ∃ n, x'.At ps (Cpu.run img.rom n s) := by
  rw [Point.step?] at hx
  split at hx
  · cases hx
  · next p hk =>
    obtain ⟨j, hj, rfl⟩ := Option.map_eq_some_iff.1 hx
    obtain ⟨pc, a, d, r⟩ := s
    obtain ⟨rfl, rfl⟩ := hs
    obtain ⟨n, a', d', hn⟩ := h.run_piece hc hk x.ram a d
    exact ⟨n, by rw [hn]; exact ⟨Target.pc_of_piece? hj, rfl⟩⟩

theorem sim_run {m : Nat} {x x' : Point} (hx : x.run? img.cells ps m = some x') {s : Cpu} (hs : x.At ps s) :
    ∃ n, x'.At ps (Cpu.run img.rom n s) := by
  -- every step of the stack machine costs the processor a number of steps of its own
  induction m generalizing x s with
  | zero => cases hx; exact ⟨0, hs⟩
  | succ m ih =>
    obtain ⟨y, hy, hx⟩ := Option.bind_eq_some_iff.1 hx
    obtain ⟨n, hn⟩ := h.sim_step hc hy hs
    obtain ⟨n', hn'⟩ := ih hx hn
    exact ⟨n + n', by rw [Cpu.run_add]; exact hn'⟩

end Image.Hosts

/-! ## Programs -/

/-- What an image does that runs as the stack machine does over the pieces. -/
structure Image.Simulates (img : Image) (ps : List Piece) : Prop where
  /-- From the start of a block, with any memory and anything in A and D, the processor gets to where the
  piece goes on, with the memory the piece leaves. -/
  block : ∀ k p, ps[k]? = some p → ∀ r a d, ∃ n a' d', Cpu.run img.rom n ⟨blockStart ps k, a, d, r⟩ =
    ⟨(p.run img.cells (BitVec.ofNat 16 (blockStart ps (k + 1))) r).2.pc ps k, a', d',
      (p.run img.cells (BitVec.ofNat 16 (blockStart ps (k + 1))) r).1⟩
  /-- Outside the scratch cells that is what the command does on a machine without them. -/
  plain : ∀ k unit m c, ps[k]? = some (.command unit m c) → ∀ r a d, (∀ w ∈ c.reaches r, ¬ w.Scratch) →
    ∃ n a' d' r', r'.Like (c.plain (img.cells unit) (BitVec.ofNat 16 (blockStart ps (k + 1))) r).1 ∧
      Cpu.run img.rom n ⟨blockStart ps k, a, d, r⟩ =
        ⟨(c.plain (img.cells unit) (BitVec.ofNat 16 (blockStart ps (k + 1))) r).2.pc ps k, a', d', r'⟩
  /-- The stack machine has a next piece behind each one that is no return. -/
  step : ∀ x p, ps[Point.piece x]? = some p → (∀ unit m, p ≠ .command unit m .ret) → (x.step? img.cells ps).isSome
  /-- The processor follows the stack machine through any number of steps. -/
  run : ∀ m x x', Point.run? img.cells ps m x = some x' → ∀ s, x.At ps s → ∃ n, x'.At ps (Cpu.run img.rom n s)

theorem Piece.run_address {cells : String → UInt16 → Word} {back : Word} {r : Ram} {p : Piece} {w : Word}
    (h : (p.run cells back r).2 = .address w) : ∃ unit m, p = .command unit m .ret := by
  cases p with
  | start => cases h
  | command unit n c =>
    cases c with
    | ret => exact ⟨unit, n, rfl⟩
    | ifGoto =>
      simp only [run, Command.run] at h
      split at h <;> cases h
    | _ => cases h

theorem Image.Hosts.simulates {img : Image} {ps : List Piece} (h : img.Hosts ps) (hc : Closed ps) :
    img.Simulates ps where
  block k p hk r a d := h.run_piece hc hk r a d
  plain k unit m c hk r a d hr := by
    obtain ⟨n, a', d', hn⟩ := h.run_piece hc hk r a d
    have hp := c.run_plain (img.cells unit) (BitVec.ofNat 16 (blockStart ps (k + 1))) r hr
    exact ⟨n, a', d', _, hp.1, by rw [hn, Piece.run, hp.2]⟩
  step x p hk hp := by
    rw [Point.step?, hk]
    simp only [Option.isSome_map]
    cases ht : (p.run img.cells (BitVec.ofNat 16 (blockStart ps (x.piece + 1))) x.ram).2 with
    | next => rfl
    | entry name =>
      obtain ⟨q, hq, hn⟩ := hc p (List.mem_of_getElem? hk) name (Piece.run_entry ht)
      rw [Target.piece?, List.findIdx?_isSome, List.any_eq_true]
      exact ⟨q, hq, by simp [hn]⟩
    | address w =>
      obtain ⟨unit, m, hr⟩ := Piece.run_address ht
      exact absurd hr (hp unit m)
  run m x x' hx s hs := h.sim_run hc hx hs

theorem Line.isSymbol_of_readable {s : Symbol} (h : (label s).Readable) : isSymbol s.text.toList := by
  by_contra hn
  simp [Readable, read?_text, hn] at h

namespace Program

/-- The output of a program means the same to the assembler as to the stack machine: it fits the address
space, its labels are declared once and name nothing else, and the sources declare all names they go to. -/
structure Linked (units : List SourceUnit) (bootstrap : Bool) (lines : List Line) : Prop where
  names : ∀ u ∈ units, isSymbol u.name.toList
  once : (declared lines).Nodup
  free : ∀ s ∈ declared lines, s ∉ predefined.map Prod.fst
  apart : ∀ x ∈ statics lines, (Symbol.static x.1 x.2).text ∉ declared lines
  closed : ∀ name ∈ mentions units bootstrap, name ∈ declares units
  size : codeSize lines ≤ maxImmediate

theorem Linked.closed_pieces {units : List SourceUnit} {bootstrap : Bool} {lines : List Line}
    (h : Linked units bootstrap lines) : Closed (pieces units bootstrap) := by
  intro p hp name hn
  have hm : name ∈ mentions units bootstrap := by
    rcases mem_pieces hp with ⟨hb, rfl | ⟨n, rfl⟩⟩ | ⟨unit, n, c, rfl, hc⟩
    · cases hn
    · cases hn
      simp [mentions, hb]
    · exact List.mem_append_right _ (List.mem_filterMap.2 ⟨(unit, c), hc, hn⟩)
  obtain ⟨x, hx, hd⟩ := List.mem_filterMap.1 (h.closed name hm)
  obtain ⟨m, hq⟩ := mem_pieces_of_commands hx bootstrap
  exact ⟨_, hq, hd⟩

theorem link_linked {units : List SourceUnit} {bootstrap : Bool} {lines : List Line}
    (hr : ∀ l ∈ lines, l.Readable) (h : Linked units bootstrap lines) : ∃ img, link lines = some img := by
  refine ⟨_, if_pos ⟨h.once, fun s hs => ?_⟩⟩
  obtain ⟨l, hl, hd⟩ := List.mem_filterMap.1 hs
  cases l with
  | label t =>
    cases hd
    rw [fixedValue?, value?_of_isSymbol (Line.isSymbol_of_readable (hr _ hl)), lookup_eq_none_of_notMem (h.free _ hs)]
    rfl
  | _ => cases hd

/-- The output of a linked program runs as the program does: its text assembles, its static cells have
memory cells of their own, and the image simulates the program on every memory. -/
theorem compile_simulates {units : List SourceUnit} {bootstrap echo : Bool} {lines : List Line}
    (h : compile units bootstrap echo = .ok lines) (hl : Linked units bootstrap lines) :
    ∃ img, assemble (lines.map Line.text) = some img ∧
      lines = (pieces units bootstrap).flatMap (Piece.lines echo) ∧
      img.OwnCells lines ∧ img.Simulates (pieces units bootstrap) := by
  have hr := compile_readable h hl.names
  have hlines := (compile_lines h).1
  obtain ⟨img, hlink⟩ := link_linked hr hl
  have ha : assemble (lines.map Line.text) = some img := (assemble_text hr).trans hlink
  -- linking knows the symbols themselves, not only their texts
  have hcells : img.OwnCells lines :=
    link_ownCells hlink (hlines ▸ sparse_flatMap_lines echo _) hl.size hl.apart
  have hhosts : img.Hosts (pieces units bootstrap) :=
    hosts_of_assemble (hlines ▸ ha) (fun p => pieces_checked h) (hlines ▸ hl.size)
  exact ⟨img, ha, hlines, hcells, hhosts.simulates hl.closed_pieces⟩

/-- A function that calls itself. -/
def recursion : List SourceUnit :=
  [{ name := "Sys", source := "function Sys.init 0\npush static 0\ncall Sys.init 1" }]

/-- The output of `recursion`, behind the call of its entry point. -/
def recursionLines : List Line :=
  [.start, .command "" {} (.call "Sys.init" 0), .command "Sys" { call := 1 } (.function "Sys.init" 0),
    .command "Sys" { call := 1 } (.push .statics 0), .command "Sys" { call := 1 } (.call "Sys.init" 1)].flatMap
      (Piece.lines true)

theorem compile_simulates_recursion :
    compile recursion true true = .ok recursionLines ∧ Linked recursion true recursionLines ∧
      ∃ img, assemble (recursionLines.map Line.text) = some img ∧
        recursionLines = (pieces recursion true).flatMap (Piece.lines true) ∧
        img.OwnCells recursionLines ∧ img.Simulates (pieces recursion true) := by
  have h : compile recursion true true = .ok recursionLines := by decide +kernel
  have hl : Linked recursion true recursionLines := {
    names := by decide
    once := by decide +kernel
    free := by decide +kernel
    apart := by decide +kernel
    closed := by decide +kernel
    size := by decide +kernel }
  exact ⟨h, hl, compile_simulates h hl⟩

end Program

end HackStack
