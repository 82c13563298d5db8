import HackStack.Proofs.Frames
/-!
# Calls that come back

`Body` is a run inside a function, block after block: ordinary commands, and calls that
come back in their turn, nested to any depth. Such a run keeps every open frame
(`Body.keeps`), so that a return finds what its call saved.

`call_comes_back`: when a called function returns, control is at the return label of the
call, the caller has its segment bases back, and the result lies where the arguments began.
-/

namespace HackStack

namespace Ram

/-- The number of the first free cell of the stack. -/
def height (r : Ram) : Nat := (r.read Cell.sp).toNat

/-- Where the working stack of the running function begins. -/
def base (r : Ram) : Nat := (r.read Cell.lcl).toNat

theorem cell_sp (r : Ram) : r.cell 0 = BitVec.ofNat 16 r.height := by
  rw [height, BitVec.ofNat_toNat, BitVec.setWidth_eq]
  rfl

theorem top_eq {r : Ram} {n : Nat} (h : r.height = n + 1) : r.top = r.cell n ∧ r.cell 0 - 1 = BitVec.ofNat 16 n := by
  have hn : r.cell 0 - 1 = BitVec.ofNat 16 n := by
    rw [cell_sp, h, BitVec.ofNat_add]
    exact BitVec.add_sub_cancel _ _
  refine ⟨?_, hn⟩
  rw [top, cell, ← hn]
  rfl

end Ram

/-! ## Passing blocks -/

namespace Image
variable (img : Image) (ps : List Piece)

/-- The processor goes through the block of a piece. -/
def Passes (k : Nat) (s s' : Cpu) : Prop :=
  s.pc = blockStart ps k ∧ s' = Cpu.pass img.rom (blockStart ps (k + 1)) s

/-- The block of a command that is neither a call nor a return. Behind it LCL and ARG, and the saved cells of
the open frames, are as before, and the stack has not shrunk below LCL or grown out of the memory. -/
structure Ordinary (frames : List Nat) (s s' : Cpu) : Prop where
  passes : ∃ k unit m c, ps[k]? = some (.command unit m c) ∧ c.kind ≠ .call ∧ c.kind ≠ .ret ∧ img.Passes ps k s s'
  keeps : Ram.Keeps frames s.data.ram s'.data.ram
  low : s'.data.ram.base ≤ s'.data.ram.height
  high : s'.data.ram.height ≤ 32768

/-- The block of a call. The arguments lie on the working stack of the caller, which is known to begin at LCL
inside a function that was called, and there is room for the frame. -/
structure Calls (frames : List Nat) (k : Nat) (callee : String) (m : Counters) (args : UInt16) (s s' : Cpu) : Prop where
  piece : ∃ unit, ps[k]? = some (.command unit m (.call callee args))
  passes : img.Passes ps k s s'
  given : 256 + args.toNat ≤ s.data.ram.height
  own : frames ≠ [] → s.data.ram.base + args.toNat ≤ s.data.ram.height
  room : s.data.ram.height + frameSize ≤ 32768

/-- The block of a return. -/
def Returns (s s' : Cpu) : Prop :=
  ∃ k unit m, ps[k]? = some (.command unit m .ret) ∧ img.Passes ps k s s'

/-- A run inside a function. `frames` are the ends of the open frames, the innermost first. -/
inductive Body : List Nat → Cpu → Cpu → Prop
  | stay (frames : List Nat) (s : Cpu) : Body frames s s
  | block {frames : List Nat} {s s' t : Cpu} (hs : img.Ordinary ps frames s s') (rest : Body frames s' t) :
    Body frames s t
  | call {frames : List Nat} {k : Nat} {callee : String} {m : Counters} {args : UInt16} {s s₁ s₂ s₃ t : Cpu}
    (hc : img.Calls ps frames k callee m args s s₁) (inner : Body (s₁.data.ram.base :: frames) s₁ s₂)
    (hr : img.Returns ps s₂ s₃) (rest : Body frames s₃ t) : Body frames s t

end Image

/-- What becomes of the memory when a call has come back: `r` is the one before the call, `u` the one before
the return, and `t` the one behind it. -/
structure Comeback (args : Nat) (r u t : Ram) : Prop where
  lcl : t.read Cell.lcl = r.read Cell.lcl
  arg : t.read Cell.arg = r.read Cell.arg
  this : t.read Cell.this = r.read Cell.this
  that : t.read Cell.that = r.read Cell.that
  height : t.height = r.height - args + 1
  result : t.cell (r.height - args) = u.top
  rest : ∀ n, 16 ≤ n → n < 32768 → n ≠ r.height - args → t.cell n = u.cell n

namespace Image.Hosts
variable {img : Image} {ps : List Piece} (h : img.Hosts ps) {frames : List Nat} {s s' : Cpu}
include h

theorem calls_ram {k : Nat} {callee : String} {m : Counters} {args : UInt16}
    (hc : img.Calls ps frames k callee m args s s') :
    s'.data.ram = s.data.ram.enter (BitVec.ofNat 16 (blockStart ps (k + 1))) args := by
  obtain ⟨unit, hk⟩ := hc.piece
  obtain ⟨hpc, rfl⟩ := hc.passes
  obtain ⟨pc, a, d, r⟩ := s
  obtain rfl : pc = blockStart ps k := hpc
  obtain ⟨a', d', hp⟩ := h.pass_piece hk r a d
  rw [hp]
  rfl

theorem returns_ram (hr : img.Returns ps s s') :
    s'.data.ram = s.data.ram.leave ∧ s'.pc = (s.data.ram.leave.read Cell.r14).address.toNat := by
  obtain ⟨k, unit, m, hk, hpc, rfl⟩ := hr
  obtain ⟨pc, a, d, r⟩ := s
  obtain rfl : pc = blockStart ps k := hpc
  obtain ⟨a', d', hp⟩ := h.pass_piece hk r a d
  rw [hp]
  exact ⟨rfl, rfl⟩

/-- A called function begins with an empty working stack behind its frame. -/
theorem calls_base {k : Nat} {callee : String} {m : Counters} {args : UInt16}
    (hc : img.Calls ps frames k callee m args s s') :
    s'.data.ram.base = s.data.ram.height + frameSize ∧ s'.data.ram.height = s.data.ram.height + frameSize := by
  have hroom := hc.room
  have hgiven := hc.given
  have he {n : Nat} (hn : n < 2) : s'.data.ram.cell n = BitVec.ofNat 16 (s.data.ram.height + frameSize) := by
    rw [h.calls_ram hc, Ram.enter_cell s.data.ram.cell_sp (by omega) (by omega) (by omega) (by omega), if_pos (by omega)]
  have hnat : (BitVec.ofNat 16 (s.data.ram.height + frameSize)).toNat = s.data.ram.height + frameSize := by
    rw [BitVec.toNat_ofNat, Nat.mod_eq_of_lt (by omega)]
  exact ⟨(congrArg BitVec.toNat (he (by decide))).trans hnat, (congrArg BitVec.toNat (he (by decide))).trans hnat⟩

/-- A call and its return, with a run in between that has kept the frame. -/
theorem comes_back {k : Nat} {callee : String} {m : Counters} {args : UInt16} {s₁ s₂ s₃ : Cpu}
    (hc : img.Calls ps frames k callee m args s s₁) (hr : img.Returns ps s₂ s₃)
    (hk : Ram.Keeps [s₁.data.ram.base] s₁.data.ram s₂.data.ram) (hlow : s₂.data.ram.base ≤ s₂.data.ram.height)
    (hhigh : s₂.data.ram.height ≤ 32768) :
    s₃.pc = blockStart ps (k + 1) ∧ Comeback args.toNat s.data.ram s₂.data.ram s₃.data.ram := by
  have hroom := hc.room
  have hgiven := hc.given
  have hsize : frameSize = 5 := rfl
  have hbase : s₂.data.ram.base = s.data.ram.height + frameSize :=
    (congrArg BitVec.toNat hk.lcl).trans (h.calls_base hc).1
  obtain ⟨top, htop⟩ : ∃ top, s₂.data.ram.height = top + 1 := ⟨s₂.data.ram.height - 1, by omega⟩
  obtain ⟨htop', hsp⟩ := Ram.top_eq htop
  rw [(h.calls_base hc).1, h.calls_ram hc] at hk
  obtain ⟨h14, hcell⟩ := Ram.return_restores s.data.ram.cell_sp (by omega) (by omega) hk hsp (by omega)
  obtain ⟨hram, hpc⟩ := h.returns_ram hr
  rw [← hram] at hcell h14
  constructor
  · rw [hpc, ← hram, h14, Word.address]
    have hlt := h.blockStart_lt (k + 1)
    simp only [BitVec.toNat_setWidth, BitVec.toNat_ofNat]
    omega
  · have hheight : s₃.data.ram.height = s.data.ram.height - args.toNat + 1 := by
      have h0 := congrArg BitVec.toNat (hcell 0 (by decide) (by decide) (by decide))
      rw [if_pos rfl, BitVec.toNat_ofNat, Nat.mod_eq_of_lt (by omega)] at h0
      exact h0
    refine ⟨hcell 1 (by decide) (by decide) (by decide), hcell 2 (by decide) (by decide) (by decide),
      hcell 3 (by decide) (by decide) (by decide), hcell 4 (by decide) (by decide) (by decide), hheight, ?_, ?_⟩
    · rw [hcell _ (by omega) (by omega) (by omega), htop']
      simp (disch := omega) only [if_neg, if_true]
    · intro n hn hn' hne
      rw [hcell n hn' (by omega) (by omega)]
      simp (disch := omega) only [if_neg]

end Image.Hosts

/-! ## Runs inside a function -/

/-- The open frames end at LCL or below it, on a stack that lies between LCL and the end of the memory. -/
structure Ram.Open (frames : List Nat) (r : Ram) : Prop where
  frames : ∀ base ∈ frames, 256 + frameSize ≤ base ∧ base ≤ r.base
  low : r.base ≤ r.height
  high : r.height ≤ 32768

namespace Ram.Keeps
variable {frames : List Nat} {r r' r'' : Ram}

theorem refl (frames : List Nat) (r : Ram) : Keeps frames r r := ⟨rfl, rfl, fun _ _ _ _ _ => rfl⟩

theorem trans (h : Keeps frames r r') (h' : Keeps frames r' r'') : Keeps frames r r'' where
  lcl := h'.lcl.trans h.lcl
  arg := h'.arg.trans h.arg
  saved base hb i hi hi' := (h'.saved base hb i hi hi').trans (h.saved base hb i hi hi')

theorem base (h : Keeps frames r r') : r'.base = r.base := congrArg BitVec.toNat h.lcl

/-- The innermost frame alone. -/
theorem head {base : Nat} (h : Keeps (base :: frames) r r') : Keeps [base] r r' where
  lcl := h.lcl
  arg := h.arg
  saved b hb := h.saved b (List.mem_cons.2 (.inl (List.mem_singleton.1 hb)))

end Ram.Keeps

theorem Ram.push_height {r : Ram} (h : 0 < r.height) (hroom : r.height < 32768) (v : Word) :
    (r.push v).height = r.height + 1 := by
  have h0 := congrArg BitVec.toNat (push_cell (v := v) r.cell_sp hroom (show 0 < 32768 by decide))
  rw [if_neg (by omega), if_pos rfl, BitVec.toNat_ofNat, Nat.mod_eq_of_lt (by omega)] at h0
  exact h0

/-- Pushing keeps every open frame. -/
theorem Ram.Open.push {frames : List Nat} {r : Ram} (h : r.Open frames) (hbase : 16 ≤ r.base) (hroom : r.height < 32768)
    (v : Word) : Keeps frames r (r.push v) ∧ (r.push v).Open frames := by
  have hlow := h.low
  have hc {n : Nat} (hn : n < 32768) := push_cell (v := v) r.cell_sp (show r.height < 32768 by omega) hn
  have hkeeps : Keeps frames r (r.push v) := by
    refine ⟨?_, ?_, fun base hb i hi hi' => ?_⟩
    · exact (hc (show 1 < 32768 by decide)).trans (by rw [if_neg (by omega)]; rfl)
    · exact (hc (show 2 < 32768 by decide)).trans (by rw [if_neg (by omega)]; rfl)
    · obtain ⟨hb', hle⟩ := h.frames base hb
      rw [hc (by omega), if_neg (by omega), if_neg (by omega)]
  have hheight := push_height (show 0 < r.height by omega) hroom v
  refine ⟨hkeeps, by rw [hkeeps.base]; exact h.frames, ?_, ?_⟩
  · rw [hkeeps.base]; omega
  · omega

namespace Image.Hosts
variable {img : Image} {ps : List Piece} (h : img.Hosts ps) {frames : List Nat}
include h

/-- Calling opens a frame. -/
theorem calls_open {k : Nat} {callee : String} {m : Counters} {args : UInt16} {s s₁ : Cpu}
    (hc : img.Calls ps frames k callee m args s s₁) (ho : ∀ base ∈ frames, 256 + frameSize ≤ base ∧ base ≤ s.data.ram.base) :
    s₁.data.ram.Open (s₁.data.ram.base :: frames) := by
  obtain ⟨hbase, hheight⟩ := h.calls_base hc
  have hroom := hc.room
  have hgiven := hc.given
  refine ⟨fun base hb => ?_, by omega, by omega⟩
  rcases List.mem_cons.1 hb with rfl | hb
  · omega
  -- an older frame ends at the caller's LCL at most, which lies below the arguments
  · have hown := hc.own (List.ne_nil_of_mem hb)
    have hbo := ho base hb
    omega

/-- A call that has come back has kept the frames that were open before it. -/
theorem comeback_keeps {k : Nat} {callee : String} {m : Counters} {args : UInt16} {s s₁ s₂ s₃ : Cpu}
    (hc : img.Calls ps frames k callee m args s s₁) (hne : frames ≠ []) (ho : s.data.ram.Open frames)
    (hk : Ram.Keeps (s₁.data.ram.base :: frames) s₁.data.ram s₂.data.ram)
    (hb : Comeback args.toNat s.data.ram s₂.data.ram s₃.data.ram) :
    Ram.Keeps frames s.data.ram s₃.data.ram ∧ s₃.data.ram.Open frames := by
  have hgiven := hc.given
  have hroom := hc.room
  have hown := hc.own hne
  have hsize : frameSize = 5 := rfl
  have hkeeps : Ram.Keeps frames s.data.ram s₃.data.ram := by
    refine ⟨hb.lcl, hb.arg, fun base hm i hi hi' => ?_⟩
    obtain ⟨hlow, hle⟩ := ho.frames base hm
    -- the frame lies below the arguments of the call
    rw [hb.rest _ (by omega) (by omega) (by omega), hk.saved base (List.mem_cons_of_mem _ hm) i hi hi', h.calls_ram hc,
      Ram.enter_cell s.data.ram.cell_sp (by omega) (by omega) (by omega) (by omega)]
    simp (disch := omega) only [if_neg]
  have hheight := hb.height
  refine ⟨hkeeps, fun base hm => ?_, ?_, ?_⟩
  · rw [hkeeps.base]; exact ho.frames base hm
  · rw [hkeeps.base]; omega
  · omega

/-- A run inside a function keeps every open frame. -/
theorem body_keeps {s t : Cpu} (hbody : img.Body ps frames s t) (hne : frames ≠ []) (ho : s.data.ram.Open frames) :
    Ram.Keeps frames s.data.ram t.data.ram ∧ t.data.ram.Open frames := by
  induction hbody with
  | stay frames s => exact ⟨.refl _ _, ho⟩
  | block hs _ ih =>
    have hopen : Ram.Open _ _ := ⟨by rw [hs.keeps.base]; exact ho.frames, hs.low, hs.high⟩
    obtain ⟨hk, ht⟩ := ih hne hopen
    exact ⟨hs.keeps.trans hk, ht⟩
  | call hc _ hr _ ihin ihrest =>
    -- the run of the callee keeps its own frame too, so the return finds what the call saved
    obtain ⟨hk, hin⟩ := ihin (by simp) (h.calls_open hc ho.frames)
    obtain ⟨-, hb⟩ := h.comes_back hc hr hk.head hin.low hin.high
    obtain ⟨hkeeps, hopen⟩ := h.comeback_keeps hc hne ho hk hb
    obtain ⟨hrest, ht⟩ := ihrest hne hopen
    exact ⟨hkeeps.trans hrest, ht⟩

end Image.Hosts

/-- In the output of every session that assembles and fits the address space, a called function that returns
gives control back to the return label of its call. The caller has its segment bases back, and the result lies
where the arguments began, on top of the stack. -/
theorem call_comes_back {echo : Bool} {rs : List Request} {img : Image}
    (h : assemble (((({ echo } : Emitter).session rs).lines.toList).map Line.text) = some img)
    (hsize : codeSize (({ echo } : Emitter).session rs).lines.toList ≤ maxImmediate)
    {k : Nat} {callee : String} {m : Counters} {args : UInt16} {s s₁ s₂ s₃ : Cpu}
    (hcall : img.Calls (({ echo } : Emitter).history rs) [] k callee m args s s₁)
    (hbody : img.Body (({ echo } : Emitter).history rs) [s₁.data.ram.base] s₁ s₂)
    (hreturn : img.Returns (({ echo } : Emitter).history rs) s₂ s₃) :
    s₃.pc = img.value (Symbol.returnSite callee m.call).text ∧
      Comeback args.toNat s.data.ram s₂.data.ram s₃.data.ram := by
  have hlines : (({ echo } : Emitter).session rs).lines.toList =
      (({ echo } : Emitter).history rs).flatMap (Piece.lines echo) := (Emitter.session_wrote { echo } rs).lines
  rw [hlines] at h hsize
  have hhosts : img.Hosts (({ echo } : Emitter).history rs) :=
    hosts_of_assemble h (fun p => Emitter.history_checked) hsize
  obtain ⟨hk, hopen⟩ := hhosts.body_keeps hbody (by simp) (hhosts.calls_open hcall (by simp))
  obtain ⟨hpc, hb⟩ := hhosts.comes_back hcall hreturn hk hopen.low hopen.high
  obtain ⟨unit, hcode⟩ := hcall.piece
  refine ⟨?_, hb⟩
  rw [hpc, blockStart_succ hcode]
  exact (value_returnSite (hhosts.carries k _ hcode)).symm

/-! ## A call inside a call -/

namespace Image.Hosts
variable {img : Image} {ps : List Piece} (h : img.Hosts ps) {frames : List Nat}
include h

/-- A call goes to where its function is declared. -/
theorem calls_entry {k j : Nat} {callee : String} {m : Counters} {args : UInt16} {p : Piece} {s s' : Cpu}
    (hc : img.Calls ps frames k callee m args s s') (hj : ps[j]? = some p) (hd : p.declares? = some callee) :
    s'.pc = blockStart ps j := by
  obtain ⟨unit, hk⟩ := hc.piece
  obtain ⟨hpc, rfl⟩ := hc.passes
  obtain ⟨pc, a, d, r⟩ := s
  obtain rfl : pc = blockStart ps k := hpc
  obtain ⟨a', d', hp⟩ := h.pass_piece hk r a d
  rw [hp]
  exact h.goto_entry hj hd (blockStart ps (k + 1))

/-- A push inside a function, with room on the stack. -/
theorem passes_push {k : Nat} {unit : String} {m : Counters} {g : Segment} {i : UInt16} {s s' : Cpu}
    (hp : img.Passes ps k s s') (hk : ps[k]? = some (.command unit m (.push g i))) (ho : s.data.ram.Open frames)
    (hbase : 16 ≤ s.data.ram.base) (hroom : s.data.ram.height < 32768) :
    img.Ordinary ps frames s s' ∧ s'.pc = blockStart ps (k + 1) ∧ s'.data.ram.Open frames ∧
      s'.data.ram.base = s.data.ram.base ∧ s'.data.ram.height = s.data.ram.height + 1 := by
  let v := g.value (img.cells unit) s.data.ram i
  obtain ⟨a, d, hrun⟩ : ∃ a d, s' = ⟨blockStart ps (k + 1), a, d, s.data.ram.push v⟩ := by
    obtain ⟨hpc, rfl⟩ := hp
    obtain ⟨pc, a, d, r⟩ := s
    obtain rfl : pc = blockStart ps k := hpc
    exact h.pass_piece hk r a d
  have hram : s'.data.ram = s.data.ram.push v := by rw [hrun]
  obtain ⟨hkeeps, hopen⟩ := ho.push hbase hroom v
  have hlow := ho.low
  rw [← hram] at hkeeps hopen
  refine ⟨⟨⟨k, unit, m, _, hk, by rintro ⟨⟩, by rintro ⟨⟩, hp⟩, hkeeps, hopen.low, hopen.high⟩, by rw [hrun], hopen,
    hkeeps.base, ?_⟩
  rw [hram, Ram.push_height (by omega) hroom]

end Image.Hosts

/-- A function that hands its argument on to another one, which gives it back. -/
def handedOn : List Request :=
  [.emit (.call "f" 1),
    .emit (.function "f" 0), .emit (.push .arguments 0), .emit (.call "g" 1), .emit .ret,
    .emit (.function "g" 0), .emit (.push .arguments 0), .emit .ret]

def handedOnPieces : List Piece :=
  [.command "" {} (.call "f" 1),
    .command "" { call := 1 } (.function "f" 0), .command "" { call := 1 } (.push .arguments 0),
    .command "" { call := 1 } (.call "g" 1), .command "" { call := 2 } .ret,
    .command "" { call := 2 } (.function "g" 0), .command "" { call := 2 } (.push .arguments 0),
    .command "" { call := 2 } .ret]

/-- The argument 5 of a caller with four different segment bases, on top of its stack. -/
def handedOnRam : Ram :=
  ((((Ram.write (fun _ => 0) Cell.sp 258).write Cell.lcl 256).write Cell.arg 250).write Cell.this 3000).write Cell.that
    3010 |>.write 257 5

theorem call_comes_back_nested : ∃ img s s₁ s₂ s₃,
    assemble (((({} : Emitter).session handedOn).lines.toList).map Line.text) = some img ∧
    s.data.ram = handedOnRam ∧
    img.Calls (({} : Emitter).history handedOn) [] 0 "f" {} 1 s s₁ ∧
    img.Body (({} : Emitter).history handedOn) [s₁.data.ram.base] s₁ s₂ ∧
    img.Returns (({} : Emitter).history handedOn) s₂ s₃ ∧
    s₃.pc = img.value (Symbol.returnSite "f" 0).text ∧ Comeback 1 s.data.ram s₂.data.ram s₃.data.ram := by
  have hps : ({} : Emitter).history handedOn = handedOnPieces := by decide +kernel
  have hlines : (({} : Emitter).session handedOn).lines.toList = handedOnPieces.flatMap (Piece.lines true) := by
    decide +kernel
  have hsome : (assemble ((handedOnPieces.flatMap (Piece.lines true)).map Line.text)).isSome := by decide +kernel
  have hsize : codeSize (handedOnPieces.flatMap (Piece.lines true)) ≤ maxImmediate := by decide +kernel
  obtain ⟨img, ha⟩ := Option.isSome_iff_exists.1 hsome
  have h : img.Hosts handedOnPieces := hosts_of_assemble ha (hps ▸ fun p => Emitter.history_checked) hsize
  -- neither function has locals, so its body begins where it is declared
  have hf : blockStart handedOnPieces 1 = blockStart handedOnPieces 2 := by decide +kernel
  have hg : blockStart handedOnPieces 5 = blockStart handedOnPieces 6 := by decide +kernel
  have hframe : frameSize = 5 := rfl
  let s : Cpu := ⟨0, 0, 0, handedOnRam⟩
  have hs : s.data.ram.height = 258 := by decide +kernel
  -- `f` is called and pushes its argument
  let f₁ := Cpu.pass img.rom (blockStart handedOnPieces 1) s
  let f₂ := Cpu.pass img.rom (blockStart handedOnPieces 3) f₁
  have hcall : img.Calls handedOnPieces [] 0 "f" {} 1 s f₁ :=
    ⟨⟨"", rfl⟩, ⟨rfl, rfl⟩, by rw [hs]; decide, fun hne => absurd rfl hne, by omega⟩
  obtain ⟨hbase₁, hheight₁⟩ := h.calls_base hcall
  have hpush : img.Passes handedOnPieces 2 f₁ f₂ := ⟨(h.calls_entry hcall (j := 1) rfl rfl).trans hf, rfl⟩
  obtain ⟨hord, hpc₂, hopen₂, hbase₂, hheight₂⟩ :=
    h.passes_push hpush rfl (h.calls_open hcall (by simp)) (by omega) (by omega)
  -- it calls `g`, which pushes its argument too and returns
  let g₁ := Cpu.pass img.rom (blockStart handedOnPieces 4) f₂
  let g₂ := Cpu.pass img.rom (blockStart handedOnPieces 7) g₁
  let f₃ := Cpu.pass img.rom (blockStart handedOnPieces 8) g₂
  have hone : (1 : UInt16).toNat = 1 := rfl
  have hcall' : img.Calls handedOnPieces [f₁.data.ram.base] 3 "g" { call := 1 } 1 f₂ g₁ :=
    ⟨⟨"", rfl⟩, ⟨hpc₂, rfl⟩, by omega, fun _ => by omega, by omega⟩
  obtain ⟨hbase₃, hheight₃⟩ := h.calls_base hcall'
  have hpush' : img.Passes handedOnPieces 6 g₁ g₂ := ⟨(h.calls_entry hcall' (j := 5) rfl rfl).trans hg, rfl⟩
  obtain ⟨hord', hpc₄, hopen₄, -, -⟩ :=
    h.passes_push hpush' rfl (h.calls_open hcall' hopen₂.frames) (by omega) (by omega)
  have hinner : img.Body handedOnPieces [g₁.data.ram.base, f₁.data.ram.base] g₁ g₂ := .block hord' (.stay _ _)
  have hret' : img.Returns handedOnPieces g₂ f₃ := ⟨7, "", { call := 2 }, rfl, hpc₄, rfl⟩
  have hback := h.comes_back hcall' hret' (h.body_keeps hinner (by simp) (h.calls_open hcall' hopen₂.frames)).1.head
    hopen₄.low hopen₄.high
  -- `f` returns
  let s' := Cpu.pass img.rom (blockStart handedOnPieces 5) f₃
  have hbody : img.Body handedOnPieces [f₁.data.ram.base] f₁ f₃ := .block hord (.call hcall' hinner hret' (.stay _ _))
  have hret : img.Returns handedOnPieces f₃ s' := ⟨4, "", { call := 2 }, rfl, hback.1, rfl⟩
  rw [hlines, hps]
  refine ⟨img, s, f₁, f₃, s', ha, rfl, hcall, hbody, hret, ?_⟩
  rw [← hps] at hcall hbody hret
  rw [← hlines] at ha hsize
  exact call_comes_back ha hsize hcall hbody hret

end HackStack
