import ProverNetwork.Verified.GoSlice

/-!
# Scanners over a byte slice

A scanner walks a byte slice with a cursor, may rewrite the bytes it passes,
carries a state of its own, and may stop the process.  `Reads p bs s Q` is its
specification on one piece of input: wherever `bs` stands, `p` started in `s`
returns, stops right behind `bs`, has changed nothing outside it, and its
result and new state satisfy `Q`.

`Exact p c F R` is the other specification, on any input: from the cursor `c` the
scanner returns if and only if `F`, and then with a result and a cursor in `R`.

## Main results

* `Reads.bind` — specifications of consecutive pieces compose.
* `Reads.repeatN` — the loop rule, with an invariant over the items read so
  far.
* `Exact.bind`, `Exact.repeatN` — the same for what is exactly needed.
-/

namespace ProverNetwork.Verified

/-- The slice, the offset of the next byte, and the scanner's own state. -/
structure Cursor (σ : Type) where
  data : Slice UInt8
  ptr : Int
  st : σ

abbrev Scan (σ α : Type) := StateT (Cursor σ) Go α

namespace Scan

variable {σ α β : Type}

/-- A read that leaves the bytes alone. -/
def read (f : Slice UInt8 → Int → Go (α × Int)) : Scan σ α := fun c => do
  let (a, ptr) ← f c.data c.ptr
  pure (a, { c with ptr := ptr })

/-- A read that rewrites some bytes on its way. -/
def readInPlace (f : Slice UInt8 → Int → Go (α × Int × Slice UInt8)) :
    Scan σ α := fun c => do
  let (a, ptr, data) ← f c.data c.ptr
  pure (a, { c with ptr := ptr, data := data })

def getState : Scan σ σ := fun c => pure (c.st, c)

def setState (s : σ) : Scan σ Unit := fun c => pure ((), { c with st := s })

def getPtr : Scan σ Int := fun c => pure (c.ptr, c)

def setPtr (ptr : Int) : Scan σ Unit := fun c => pure ((), { c with ptr := ptr })

/-- Stops the process unless `x` returns. -/
def liftGo (x : Go α) : Scan σ α := fun c => do
  let a ← x
  pure (a, c)

/-- `for i := 0; i < n; i++ { out[i] = p() }`. -/
def repeatN : Nat → Scan σ α → Scan σ (List α)
  | 0, _ => pure []
  | n + 1, p => do
      let a ← p
      let rest ← repeatN n p
      pure (a :: rest)

theorem bind_apply (p : Scan σ α) (q : α → Scan σ β) (c : Cursor σ) :
    (p >>= q) c = (p c >>= fun r => q r.1 r.2) := rfl

theorem pure_apply (a : α) (c : Cursor σ) :
    (pure a : Scan σ α) c = .ok (a, c) := rfl

/-- From `c` the scanner returns, with a result that satisfies `Q`. -/
def Gives (p : Scan σ α) (c : Cursor σ) (Q : α → Prop) : Prop := (p c).Returns (fun r => Q r.1)

variable {c : Cursor σ} {Q : α → Prop}

theorem gives_pure (a : α) : (pure a : Scan σ α).Gives c Q ↔ Q a := Go.returns_ok (a, c)

theorem gives_getState (q : σ → Scan σ α) :
    (getState >>= q).Gives c Q ↔ (q c.st).Gives c Q := Iff.rfl

theorem gives_setState (s : σ) (q : Unit → Scan σ α) :
    (setState s >>= q).Gives c Q ↔ (q ()).Gives { c with st := s } Q := Iff.rfl

theorem gives_getPtr (q : Int → Scan σ α) :
    (getPtr >>= q).Gives c Q ↔ (q c.ptr).Gives c Q := Iff.rfl

theorem gives_setPtr (ptr : Int) (q : Unit → Scan σ α) :
    (setPtr ptr >>= q).Gives c Q ↔ (q ()).Gives { c with ptr := ptr } Q := Iff.rfl

theorem gives_ite (P : Prop) [Decidable P] (p q : Scan σ α) :
    (if P then p else q).Gives c Q ↔ P ∧ p.Gives c Q ∨ ¬P ∧ q.Gives c Q := by
  by_cases h : P <;> simp [h]

end Scan

/-- Where `bs` stands, the scanner reads exactly `bs`. -/
def Reads {σ α : Type} (p : Scan σ α) (bs : List UInt8) (s : σ)
    (Q : α → σ → Prop) : Prop :=
  ∀ (data : Slice UInt8) (off : Nat), data.At off bs →
    ∃ a s' data', p ⟨data, off, s⟩ = .ok (a, ⟨data', ((off + bs.length : Nat) : Int), s'⟩) ∧
      Slice.Frame off (off + bs.length) data data' ∧ Q a s'

namespace Reads

variable {σ α β ι : Type} {bs cs : List UInt8} {s : σ} {P Q : α → σ → Prop}

theorem mono {p : Scan σ α} (h : Reads p bs s P) (himp : ∀ a s', P a s' → Q a s') :
    Reads p bs s Q := by
  intro data off hat
  obtain ⟨a, s', data', hrun, hframe, ha⟩ := h data off hat
  exact ⟨a, s', data', hrun, hframe, himp a s' ha⟩

theorem pure {a : α} (h : Q a s) : Reads (pure a : Scan σ α) [] s Q := by
  intro data off _
  exact ⟨a, s, data, rfl, Slice.Frame.refl _ _ data, h⟩

/-- A read that leaves the bytes alone, from what it does at an offset. -/
theorem read {f : Slice UInt8 → Int → Go (α × Int)} {a : α}
    (hf : ∀ (data : Slice UInt8) (off : Nat), data.At off bs →
      f data off = .ok (a, ((off + bs.length : Nat) : Int)))
    (h : Q a s) : Reads (Scan.read f : Scan σ α) bs s Q := by
  intro data off hat
  refine ⟨a, s, data, ?_, Slice.Frame.refl _ _ data, h⟩
  show (f data off >>= _) = _
  rw [hf data off hat]
  rfl

/-- A read that rewrites bytes, from what it does at an offset. -/
theorem readInPlace {f : Slice UInt8 → Int → Go (α × Int × Slice UInt8)} {a : α}
    (hf : ∀ (data : Slice UInt8) (off : Nat), data.At off bs → ∃ data',
      f data off = .ok (a, ((off + bs.length : Nat) : Int), data') ∧
        Slice.Frame off (off + bs.length) data data')
    (h : Q a s) : Reads (Scan.readInPlace f : Scan σ α) bs s Q := by
  intro data off hat
  obtain ⟨data', hrun, hframe⟩ := hf data off hat
  refine ⟨a, s, data', ?_, hframe, h⟩
  show (f data off >>= _) = _
  rw [hrun]
  rfl

/-- **Sequencing.**  The second scanner starts where the first one stopped;
the first one's writes cannot reach the second one's input. -/
theorem bind {p : Scan σ α} {q : α → Scan σ β} {R : β → σ → Prop}
    (hp : Reads p bs s P) (hq : ∀ a s', P a s' → Reads (q a) cs s' R) :
    Reads (p >>= q) (bs ++ cs) s R := by
  intro data off hat
  obtain ⟨hbs, hcs⟩ := (Slice.At.append_iff data off bs cs).1 hat
  obtain ⟨a, s1, data1, hrun1, hframe1, ha⟩ := hp data off hbs
  have hcs1 : data1.At (off + bs.length) cs :=
    hcs.frame hframe1 (Or.inr (Nat.le_refl _))
  obtain ⟨b, s2, data2, hrun2, hframe2, hb⟩ := hq a s1 ha data1 _ hcs1
  have hlen : off + (bs ++ cs).length = off + bs.length + cs.length := by
    rw [List.length_append, Nat.add_assoc]
  refine ⟨b, s2, data2, ?_, ?_, hb⟩
  · rw [Scan.bind_apply, hrun1, Go.ok_bind, hrun2, hlen]
  · rw [hlen]
    exact hframe1.trans hframe2 (by omega) (by omega)

/-- Sequencing where the first result and the state between are known. -/
theorem bind_eq {p : Scan σ α} {q : α → Scan σ β} {R : β → σ → Prop} {a : α} {t : σ}
    (hp : Reads p bs s (fun x s' => x = a ∧ s' = t)) (hq : Reads (q a) cs t R) :
    Reads (p >>= q) (bs ++ cs) s R := by
  refine bind hp ?_
  intro x s' h
  rw [h.1, h.2]
  exact hq

theorem bind_getState {q : σ → Scan σ β} {R : β → σ → Prop}
    (hq : Reads (q s) cs s R) : Reads (Scan.getState >>= q) cs s R := hq

theorem bind_setState {t : σ} {q : Unit → Scan σ β} {R : β → σ → Prop}
    (hq : Reads (q ()) cs t R) : Reads (Scan.setState t >>= q) cs s R := hq

theorem bind_liftGo {x : Go α} {a : α} {q : α → Scan σ β} {R : β → σ → Prop}
    (hx : x = .ok a) (hq : Reads (q a) cs s R) :
    Reads (Scan.liftGo x >>= q) cs s R := by
  rw [hx]
  exact hq

theorem map {p : Scan σ α} {f : α → β} {R : β → σ → Prop}
    (hp : Reads p bs s (fun a s' => R (f a) s')) :
    Reads (p >>= fun a => Pure.pure (f a)) bs s R := by
  have h : Reads (p >>= fun a => Pure.pure (f a)) (bs ++ []) s R :=
    bind hp (fun a s' ha => pure ha)
  rwa [List.append_nil] at h

/-- The loop rule from the middle of a run: `done` is read, `todo` is not. -/
private theorem repeatN_from {p : Scan σ α} {enc : ι → List UInt8} {xs : List ι}
    {I : List ι → List α → σ → Prop}
    (hstep : ∀ done x rest out s, xs = done ++ x :: rest → I done out s →
      Reads p (enc x) s (fun a s' => I (done ++ [x]) (out ++ [a]) s')) :
    ∀ (todo done : List ι) (out : List α) (s : σ), xs = done ++ todo →
      I done out s →
      Reads (Scan.repeatN todo.length p) (todo.flatMap enc) s
        (fun rest s' => I xs (out ++ rest) s') := by
  intro todo
  induction todo with
  | nil =>
      intro done out s hxs hI
      exact pure (by simpa [hxs] using hI)
  | cons x todo ih =>
      intro done out s hxs hI
      rw [List.flatMap_cons, List.length_cons]
      refine bind (hstep done x todo out s hxs hI) ?_
      intro a s' hI'
      refine map ((ih (done ++ [x]) (out ++ [a]) s' (by simp [hxs]) hI').mono ?_)
      intro rest s'' h
      simpa using h

/-- **The loop rule.**  `I done out s` says what holds once the items `done`
were read into `out`; it holds at the start and reading one more item keeps
it. -/
theorem repeatN {p : Scan σ α} {enc : ι → List UInt8} {xs : List ι}
    {I : List ι → List α → σ → Prop} (hI : I [] [] s)
    (hstep : ∀ done x rest out s, xs = done ++ x :: rest → I done out s →
      Reads p (enc x) s (fun a s' => I (done ++ [x]) (out ++ [a]) s')) :
    Reads (Scan.repeatN xs.length p) (xs.flatMap enc) s (I xs) := by
  have h := repeatN_from hstep xs [] [] s rfl hI
  simpa only [List.nil_append] using h

end Reads

/-! ## What a scanner needs -/

/-- From `c` the scanner returns exactly where `F` holds, and then `R`. -/
structure Exact {σ α : Type} (p : Scan σ α) (c : Cursor σ) (F : Prop)
    (R : α → Cursor σ → Prop) : Prop where
  returns : p.Gives c (fun _ => True) ↔ F
  result : ∀ a c', p c = .ok (a, c') → R a c'

namespace Exact

variable {σ α β : Type} {c : Cursor σ} {F G : Prop} {R : α → Cursor σ → Prop}
  {S : β → Cursor σ → Prop}

theorem needed {p : Scan σ α} (h : Exact p c F R) {r : α × Cursor σ} (hrun : p c = .ok r) : F :=
  h.returns.1 ⟨r, hrun, trivial⟩

theorem mono {p : Scan σ α} {R' : α → Cursor σ → Prop} (h : Exact p c F R) (hiff : F ↔ G)
    (himp : F → ∀ a c', R a c' → R' a c') : Exact p c G R' :=
  ⟨h.returns.trans hiff, fun a c' hrun => himp (h.needed hrun) a c' (h.result a c' hrun)⟩

theorem pure {a : α} (h : R a c) : Exact (pure a : Scan σ α) c True R := by
  refine ⟨⟨fun _ => trivial, fun _ => ⟨(a, c), rfl, trivial⟩⟩, ?_⟩
  intro a' c' hrun
  cases hrun
  exact h

/-- What a sequence needs, where what follows is known from `R`. -/
theorem gives_bind {p : Scan σ α} {q : α → Scan σ β} {Q : β → Prop}
    (hp : Exact p c F R) (hq : F → ∀ a c', R a c' → ((q a).Gives c' Q ↔ G)) :
    (p >>= q).Gives c Q ↔ F ∧ G := by
  rw [Scan.Gives, Scan.bind_apply, Go.returns_bind]
  constructor
  · rintro ⟨⟨a, c'⟩, hrun, hrest⟩
    have hF := hp.needed hrun
    exact ⟨hF, (hq hF a c' (hp.result a c' hrun)).1 hrest⟩
  · rintro ⟨hF, hG⟩
    obtain ⟨⟨a, c'⟩, hrun, -⟩ := hp.returns.2 hF
    exact ⟨_, hrun, (hq hF a c' (hp.result a c' hrun)).2 hG⟩

/-- **Sequencing.** -/
theorem bind {p : Scan σ α} {q : α → Scan σ β} (hp : Exact p c F R)
    (hq : F → ∀ a c', R a c' → Exact (q a) c' G S) : Exact (p >>= q) c (F ∧ G) S := by
  refine ⟨gives_bind hp (fun hF a c' ha => (hq hF a c' ha).returns), ?_⟩
  intro b c'' hrun
  rw [Scan.bind_apply] at hrun
  obtain ⟨⟨a, c'⟩, hfirst, hrest⟩ := (Go.bind_eq_ok _ _ _).1 hrun
  exact (hq (hp.needed hfirst) a c' (hp.result a c' hfirst)).result b c'' hrest

theorem read {f : Slice UInt8 → Int → Go (α × Int)}
    (hf : (f c.data c.ptr).Returns (fun _ => True) ↔ F)
    (h : ∀ a ptr, f c.data c.ptr = .ok (a, ptr) → R a { c with ptr := ptr }) :
    Exact (Scan.read f : Scan σ α) c F R := by
  refine ⟨?_, ?_⟩
  · show Go.Returns (f c.data c.ptr >>= _) _ ↔ F
    simpa using hf
  · intro a c' hrun
    obtain ⟨⟨a', ptr⟩, hread, hend⟩ := (Go.bind_eq_ok _ _ _).1 hrun
    cases hend
    exact h a ptr hread

theorem readInPlace {f : Slice UInt8 → Int → Go (α × Int × Slice UInt8)}
    (hf : (f c.data c.ptr).Returns (fun _ => True) ↔ F)
    (h : ∀ a ptr data, f c.data c.ptr = .ok (a, ptr, data) →
      R a { c with ptr := ptr, data := data }) :
    Exact (Scan.readInPlace f : Scan σ α) c F R := by
  refine ⟨?_, ?_⟩
  · show Go.Returns (f c.data c.ptr >>= _) _ ↔ F
    simpa using hf
  · intro a c' hrun
    obtain ⟨⟨a', ptr, data⟩, hread, hend⟩ := (Go.bind_eq_ok _ _ _).1 hrun
    cases hend
    exact h a ptr data hread

theorem liftGo {x : Go α} (hx : x.Returns (fun _ => True) ↔ F)
    (h : ∀ a, x = .ok a → R a c) : Exact (Scan.liftGo x : Scan σ α) c F R := by
  refine ⟨?_, ?_⟩
  · show Go.Returns (x >>= _) _ ↔ F
    simpa using hx
  · intro a c' hrun
    obtain ⟨a', hlift, hend⟩ := (Go.bind_eq_ok _ _ _).1 hrun
    cases hend
    exact h a hlift

theorem with_run {p : Scan σ α} (h : Exact p c F R) :
    Exact p c F (fun a c' => R a c' ∧ p c = .ok (a, c')) :=
  ⟨h.returns, fun a c' hrun => ⟨h.result a c' hrun, hrun⟩⟩

theorem bind_getState {q : σ → Scan σ β} (h : Exact (q c.st) c F S) :
    Exact (Scan.getState >>= q) c F S :=
  ⟨h.returns, h.result⟩

theorem bind_setState {s : σ} {q : Unit → Scan σ β} (h : Exact (q ()) { c with st := s } F S) :
    Exact (Scan.setState s >>= q) c F S :=
  ⟨h.returns, h.result⟩

theorem bind_getPtr {q : Int → Scan σ β} (h : Exact (q c.ptr) c F S) :
    Exact (Scan.getPtr >>= q) c F S :=
  ⟨h.returns, h.result⟩

theorem bind_setPtr {ptr : Int} {q : Unit → Scan σ β}
    (h : Exact (q ()) { c with ptr := ptr } F S) : Exact (Scan.setPtr ptr >>= q) c F S :=
  ⟨h.returns, h.result⟩

/-- A loop's first turn, and the turns behind it. -/
theorem forall_turns {P : Nat → Prop} (i n : Nat) :
    (P i ∧ ∀ j, j < n → P (i + 1 + j)) ↔ ∀ j, j < n + 1 → P (i + j) := by
  rw [Nat.forall_lt_succ_left]
  refine and_congr Iff.rfl (forall₂_congr ?_)
  intro j _
  rw [Nat.add_assoc, Nat.add_comm 1 j]

/-- The loop rule from the middle of a run, with `i` turns done. -/
private theorem repeatN_from {p : Scan σ α} {I : Nat → List α → Cursor σ → Prop}
    {Fits : Nat → Prop}
    (hstep : ∀ i out c, I i out c →
      Exact p c (Fits i) (fun a c' => I (i + 1) (out ++ [a]) c')) :
    ∀ n i out c, I i out c → Exact (Scan.repeatN n p) c (∀ j, j < n → Fits (i + j))
      (fun rest c' => I (i + n) (out ++ rest) c') := by
  intro n
  induction n with
  | zero =>
      intro i out c hI
      have hdone : I (i + 0) (out ++ []) c := by
        rw [List.append_nil]
        exact hI
      refine (Exact.pure (R := fun rest c' => I (i + 0) (out ++ rest) c') hdone).mono ?_
        (fun _ _ _ h => h)
      simp
  | succ n ih =>
      intro i out c hI
      refine ((hstep i out c hI).bind (fun _ a c' ha =>
        (ih (i + 1) (out ++ [a]) c' ha).bind (fun _ rest c'' hrest =>
          Exact.pure (R := fun rest c' => I (i + (n + 1)) (out ++ rest) c') ?_))).mono ?_
        (fun _ _ _ h => h)
      · have hcount : i + (n + 1) = i + 1 + n := by omega
        rw [hcount]
        simpa using hrest
      · rw [and_true]
        exact forall_turns i n

/-- **The loop rule.**  `I i out c` says what holds after `i` turns, and turn `i` needs
`Fits i`. -/
theorem repeatN {p : Scan σ α} {I : Nat → List α → Cursor σ → Prop} {Fits : Nat → Prop}
    (hI : I 0 [] c)
    (hstep : ∀ i out c, I i out c → Exact p c (Fits i) (fun a c' => I (i + 1) (out ++ [a]) c'))
    (n : Nat) : Exact (Scan.repeatN n p) c (∀ i, i < n → Fits i) (I n) := by
  have h := repeatN_from hstep n 0 [] c hI
  simpa using h

end Exact

end ProverNetwork.Verified
