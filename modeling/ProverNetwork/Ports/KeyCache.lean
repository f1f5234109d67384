import ProverNetwork.Ports.RSAEncryption
import ProverNetwork.Verified.Run
import ProverNetwork.Verified.Stamped

/-!
# The key cache of the hub

`get_encryptor` takes the modification times of the two key files, answers from
the cache where both are those of the cached encryptor, and else reads the two
files and caches what it built from them.  The calls run one at a time under a
lock, but the files are written at any time between two of their awaits: the
two times, and the two contents, need not belong together.

What a call caches is harmless all the same.  Each content was read after the
time it is cached under was taken, so it is right for as long as that time is
the current one.

## Main results

* `KeyCacheInv` — what the cached and the taken times say of the contents.
* `getEncryptor_current` — what a call returns when no file was written during
  it, and when the cache changes.
-/

namespace ProverNetwork.Ports.KeyCache

open ProverNetwork.Verified
open ProverNetwork.Ports

inductive KeyFile
  | privateKey
  | publicKey
  deriving DecidableEq

/-- What the call under the lock awaits next, with what it has taken so far. -/
inductive Progress (τ : Type)
  | statPrivate
  | statPublic (priv_mtime : τ)
  | readPrivate (priv_mtime pub_mtime : τ)
  | readPublic (priv_mtime pub_mtime : τ) (private_key : String)
  | build (priv_mtime pub_mtime : τ) (private_key public_key : String)

/-- The two files, the cache, the call under the lock and the calls that wait
for it. -/
structure World (τ ι Pub Priv : Type) where
  private_key : Stamped τ String
  public_key : Stamped τ String
  cache : Option (τ × τ × RSAEncryption Pub Priv)
  holder : Option (ι × Progress τ)
  waiting : List ι

/-- How an await of the call under the lock ends. -/
inductive Outcome (τ Pub Priv : Type)
  | next (p : Progress τ)
  | hit (e : RSAEncryption Pub Priv)
  | loaded (priv_mtime pub_mtime : τ) (e : RSAEncryption Pub Priv)
  | raises

/-- Writes, calls, and what happens to them: a waiting call gets the lock, an
await of the call under the lock ends well or raises, a call is cancelled. -/
inductive Label (τ ι : Type)
  | write (file : KeyFile) (mtime : τ) (content : String)
  | call (i : ι)
  | lock (i : ι)
  | go (i : ι) (ok : Bool)
  | cancel (i : ι)

def Label.isWrite {τ ι : Type} : Label τ ι → Bool
  | .write _ _ _ => true
  | _ => false

/-- Nobody has called yet. -/
def World.initial {τ ι Pub Priv : Type} (private_key public_key : Stamped τ String) :
    World τ ι Pub Priv :=
  ⟨private_key, public_key, none, none, []⟩

section Steps

variable {τ ι Pub Priv : Type} [DecidableEq τ] [DecidableEq ι] (lib : Cryptography Pub Priv)

/-- `get_encryptor` from one await to the next.  The comparison with the cache
follows the second `stat`, the encryptor is built when the second file is
closed. -/
def World.await (w : World τ ι Pub Priv) : Progress τ → Outcome τ Pub Priv
  | .statPrivate => .next (.statPublic w.private_key.stamp)
  | .statPublic priv_mtime =>
      let pub_mtime := w.public_key.stamp
      match w.cache with
      | none => .next (.readPrivate priv_mtime pub_mtime)
      | some (cachedPriv, cachedPub, e) =>
          if cachedPriv = priv_mtime ∧ cachedPub = pub_mtime then .hit e
          else .next (.readPrivate priv_mtime pub_mtime)
  | .readPrivate priv_mtime pub_mtime =>
      .next (.readPublic priv_mtime pub_mtime w.private_key.content)
  | .readPublic priv_mtime pub_mtime private_key =>
      .next (.build priv_mtime pub_mtime private_key w.public_key.content)
  | .build priv_mtime pub_mtime private_key public_key =>
      match RSAEncryption.init lib public_key private_key with
      | .error _ => .raises
      | .ok e => .loaded priv_mtime pub_mtime e

/-- An await may raise instead. -/
def World.outcome (w : World τ ι Pub Priv) (ok : Bool) (p : Progress τ) : Outcome τ Pub Priv :=
  if ok then w.await lib p else .raises

/-- The call under the lock goes on, or leaves it. -/
def World.after (w : World τ ι Pub Priv) (i : ι) : Outcome τ Pub Priv → World τ ι Pub Priv
  | .next p => { w with holder := some (i, p) }
  | .hit _ => { w with holder := none }
  | .loaded priv_mtime pub_mtime e =>
      { w with cache := some (priv_mtime, pub_mtime, e), holder := none }
  | .raises => { w with holder := none }

/-- What the call returns at the end of an await. -/
def Outcome.result : Outcome τ Pub Priv → Option (RSAEncryption Pub Priv)
  | .hit e => some e
  | .loaded _ _ e => some e
  | _ => none

/-- The call is under the lock. -/
def World.holds (w : World τ ι Pub Priv) (i : ι) : Bool := w.holder.any (fun h => h.1 = i)

/-- What the call `i` returns with the label, if it returns. -/
def World.returned (w : World τ ι Pub Priv) : Label τ ι → Option (ι × RSAEncryption Pub Priv)
  | .go i ok =>
      match w.holder with
      | none => none
      | some (j, p) =>
          if j = i then (w.outcome lib ok p).result.map (fun e => (i, e)) else none
  | _ => none

/-- One step. -/
def World.step (w : World τ ι Pub Priv) : Label τ ι → Option (World τ ι Pub Priv)
  | .write .privateKey mtime content =>
      (w.private_key.write mtime content).map (fun f => { w with private_key := f })
  | .write .publicKey mtime content =>
      (w.public_key.write mtime content).map (fun f => { w with public_key := f })
  | .call i =>
      if w.holds i = true ∨ i ∈ w.waiting then none
      else some { w with waiting := w.waiting ++ [i] }
  | .lock i =>
      if w.holder.isNone = true ∧ i ∈ w.waiting then
        some { w with holder := some (i, .statPrivate), waiting := w.waiting.erase i }
      else none
  | .go i ok =>
      match w.holder with
      | none => none
      | some (j, p) => if j = i then some (w.after i (w.outcome lib ok p)) else none
  | .cancel i =>
      if w.holds i then some { w with holder := none }
      else if i ∈ w.waiting then some { w with waiting := w.waiting.erase i }
      else none

/-! ## One step -/

/-- How an await of the call under the lock can end. -/
inductive Awaits (w : World τ ι Pub Priv) : Progress τ → Outcome τ Pub Priv → Prop
  | raises (p : Progress τ) : Awaits w p .raises
  | statPrivate : Awaits w .statPrivate (.next (.statPublic w.private_key.stamp))
  | hit (priv_mtime : τ) (e : RSAEncryption Pub Priv) :
      w.cache = some (priv_mtime, w.public_key.stamp, e) →
      Awaits w (.statPublic priv_mtime) (.hit e)
  | statPublic (priv_mtime : τ) :
      Awaits w (.statPublic priv_mtime) (.next (.readPrivate priv_mtime w.public_key.stamp))
  | readPrivate (priv_mtime pub_mtime : τ) :
      Awaits w (.readPrivate priv_mtime pub_mtime)
        (.next (.readPublic priv_mtime pub_mtime w.private_key.content))
  | readPublic (priv_mtime pub_mtime : τ) (private_key : String) :
      Awaits w (.readPublic priv_mtime pub_mtime private_key)
        (.next (.build priv_mtime pub_mtime private_key w.public_key.content))
  | build (priv_mtime pub_mtime : τ) (private_key public_key : String)
      (e : RSAEncryption Pub Priv) : RSAEncryption.init lib public_key private_key = .ok e →
      Awaits w (.build priv_mtime pub_mtime private_key public_key)
        (.loaded priv_mtime pub_mtime e)

omit [DecidableEq ι] in
theorem awaits (w : World τ ι Pub Priv) (ok : Bool) (p : Progress τ) :
    Awaits lib w p (w.outcome lib ok p) := by
  unfold World.outcome
  cases ok with
  | false => exact .raises p
  | true =>
      rw [if_pos rfl]
      cases p with
      | statPrivate => exact .statPrivate
      | statPublic priv_mtime =>
          unfold World.await
          cases hcache : w.cache with
          | none => exact .statPublic priv_mtime
          | some cached =>
              obtain ⟨cachedPriv, cachedPub, e⟩ := cached
              dsimp only
              split
              next hsame =>
                obtain ⟨rfl, rfl⟩ := hsame
                exact .hit cachedPriv e hcache
              next => exact .statPublic priv_mtime
      | readPrivate priv_mtime pub_mtime => exact .readPrivate priv_mtime pub_mtime
      | readPublic priv_mtime pub_mtime private_key =>
          exact .readPublic priv_mtime pub_mtime private_key
      | build priv_mtime pub_mtime private_key public_key =>
          cases hinit : RSAEncryption.init lib public_key private_key with
          | error err =>
              simp only [World.await, hinit]
              exact .raises _
          | ok e =>
              simp only [World.await, hinit]
              exact .build priv_mtime pub_mtime private_key public_key e hinit

/-- What a single step can do, guards included. -/
inductive Effect (w : World τ ι Pub Priv) : Label τ ι → World τ ι Pub Priv → Prop
  | wrotePrivate (mtime : τ) (content : String) (f : Stamped τ String) :
      w.private_key.write mtime content = some f →
      Effect w (.write .privateKey mtime content) { w with private_key := f }
  | wrotePublic (mtime : τ) (content : String) (f : Stamped τ String) :
      w.public_key.write mtime content = some f →
      Effect w (.write .publicKey mtime content) { w with public_key := f }
  | called (i : ι) : (∀ p, w.holder ≠ some (i, p)) →
      Effect w (.call i) { w with waiting := w.waiting ++ [i] }
  | locked (i : ι) : w.holder = none →
      Effect w (.lock i)
        { w with holder := some (i, .statPrivate), waiting := w.waiting.erase i }
  | went (i : ι) (ok : Bool) (p : Progress τ) : w.holder = some (i, p) →
      Awaits lib w p (w.outcome lib ok p) →
      Effect w (.go i ok) (w.after i (w.outcome lib ok p))
  | cancelledHolder (i : ι) : Effect w (.cancel i) { w with holder := none }
  | cancelledWaiting (i : ι) : Effect w (.cancel i) { w with waiting := w.waiting.erase i }

theorem effect_of_step {w w' : World τ ι Pub Priv} {label : Label τ ι}
    (hstep : w.step lib label = some w') : Effect lib w label w' := by
  cases label with
  | write file mtime content =>
      cases file with
      | privateKey =>
          obtain ⟨f, hwrite, rfl⟩ := Option.map_eq_some_iff.1 hstep
          exact .wrotePrivate mtime content f hwrite
      | publicKey =>
          obtain ⟨f, hwrite, rfl⟩ := Option.map_eq_some_iff.1 hstep
          exact .wrotePublic mtime content f hwrite
  | call i =>
      simp only [World.step] at hstep
      split at hstep
      next => cases hstep
      next hfree =>
        cases hstep
        refine .called i ?_
        intro p hholder
        exact hfree (Or.inl (by simp [World.holds, hholder]))
  | lock i =>
      simp only [World.step] at hstep
      split at hstep
      next hfree =>
        cases hstep
        exact .locked i (by simpa using hfree.1)
      next => cases hstep
  | go i ok =>
      simp only [World.step] at hstep
      split at hstep
      next => cases hstep
      next j p hholder =>
        split at hstep
        next hji =>
          subst hji
          cases hstep
          exact .went j ok p hholder (awaits lib w ok p)
        next => cases hstep
  | cancel i =>
      simp only [World.step] at hstep
      split at hstep
      next =>
        cases hstep
        exact .cancelledHolder i
      next =>
        split at hstep
        next =>
          cases hstep
          exact .cancelledWaiting i
        next => cases hstep

/-! ## The invariant -/

/-- The times were taken from the files, each content after the time of its
file. -/
def Progress.Fits (f g : Stamped τ String) : Progress τ → Prop
  | .statPrivate => True
  | .statPublic priv_mtime => priv_mtime ∈ f.used
  | .readPrivate priv_mtime pub_mtime => priv_mtime ∈ f.used ∧ pub_mtime ∈ g.used
  | .readPublic priv_mtime pub_mtime private_key =>
      f.Fits priv_mtime private_key ∧ pub_mtime ∈ g.used
  | .build priv_mtime pub_mtime private_key public_key =>
      f.Fits priv_mtime private_key ∧ g.Fits pub_mtime public_key

/-- The times are those of the files. -/
def Progress.Current (f g : Stamped τ String) : Progress τ → Prop
  | .statPrivate => True
  | .statPublic priv_mtime => priv_mtime = f.stamp
  | .readPrivate priv_mtime pub_mtime => priv_mtime = f.stamp ∧ pub_mtime = g.stamp
  | .readPublic priv_mtime pub_mtime _ => priv_mtime = f.stamp ∧ pub_mtime = g.stamp
  | .build priv_mtime pub_mtime _ _ => priv_mtime = f.stamp ∧ pub_mtime = g.stamp

/-- The encryptor was built from contents read under the times. -/
def BuiltUnder (f g : Stamped τ String) (priv_mtime pub_mtime : τ)
    (e : RSAEncryption Pub Priv) : Prop :=
  ∃ private_key public_key, f.Fits priv_mtime private_key ∧ g.Fits pub_mtime public_key ∧
    RSAEncryption.init lib public_key private_key = .ok e

/-- What is cached and what is being loaded are right for as long as their times
are current. -/
structure KeyCacheInv (w : World τ ι Pub Priv) : Prop where
  cached : ∀ priv_mtime pub_mtime e, w.cache = some (priv_mtime, pub_mtime, e) →
    BuiltUnder lib w.private_key w.public_key priv_mtime pub_mtime e
  held : ∀ i p, w.holder = some (i, p) → p.Fits w.private_key w.public_key

omit [DecidableEq τ] [DecidableEq ι] in
theorem initial_keyCacheInv (private_key public_key : Stamped τ String) :
    KeyCacheInv lib (World.initial private_key public_key : World τ ι Pub Priv) :=
  ⟨fun _ _ _ h => (by cases h), fun _ _ h => (by cases h)⟩

variable {lib}

theorem Progress.Fits.write_private {f f' g : Stamped τ String} {mtime : τ} {content : String}
    {p : Progress τ} (hwrite : f.write mtime content = some f') (h : p.Fits f g) :
    p.Fits f' g := by
  cases p with
  | statPrivate => trivial
  | statPublic priv_mtime => exact Stamped.mem_used_write hwrite h
  | readPrivate priv_mtime pub_mtime => exact ⟨Stamped.mem_used_write hwrite h.1, h.2⟩
  | readPublic priv_mtime pub_mtime private_key => exact ⟨h.1.write hwrite, h.2⟩
  | build priv_mtime pub_mtime private_key public_key => exact ⟨h.1.write hwrite, h.2⟩

theorem Progress.Fits.write_public {f g g' : Stamped τ String} {mtime : τ} {content : String}
    {p : Progress τ} (hwrite : g.write mtime content = some g') (h : p.Fits f g) :
    p.Fits f g' := by
  cases p with
  | statPrivate => trivial
  | statPublic priv_mtime => exact h
  | readPrivate priv_mtime pub_mtime => exact ⟨h.1, Stamped.mem_used_write hwrite h.2⟩
  | readPublic priv_mtime pub_mtime private_key =>
      exact ⟨h.1, Stamped.mem_used_write hwrite h.2⟩
  | build priv_mtime pub_mtime private_key public_key => exact ⟨h.1, h.2.write hwrite⟩

omit [DecidableEq τ] [DecidableEq ι] in
/-- An await keeps what was taken right, and loads under the times taken. -/
theorem KeyCacheInv.after {w : World τ ι Pub Priv} (hinv : KeyCacheInv lib w) {i : ι}
    {p : Progress τ} {outcome : Outcome τ Pub Priv} (hp : p.Fits w.private_key w.public_key)
    (hawaits : Awaits lib w p outcome) : KeyCacheInv lib (w.after i outcome) := by
  have hleft : KeyCacheInv lib { w with holder := none } :=
    ⟨hinv.cached, fun _ _ h => (by cases h)⟩
  have hnext : ∀ p', p'.Fits w.private_key w.public_key →
      KeyCacheInv lib (w.after i (.next p')) := by
    intro p' hfits
    refine ⟨hinv.cached, ?_⟩
    intro j q hholder
    cases hholder
    exact hfits
  cases hawaits with
  | raises _ => exact hleft
  | statPrivate => exact hnext _ w.private_key.mem_used
  | hit priv_mtime e hcache => exact hleft
  | statPublic priv_mtime => exact hnext _ ⟨hp, w.public_key.mem_used⟩
  | readPrivate priv_mtime pub_mtime => exact hnext _ ⟨.of_stamp hp.1, hp.2⟩
  | readPublic priv_mtime pub_mtime private_key => exact hnext _ ⟨hp.1, .of_stamp hp.2⟩
  | build priv_mtime pub_mtime private_key public_key e hinit =>
      refine ⟨?_, fun _ _ h => (by cases h)⟩
      intro pm qm e' hcache
      cases hcache
      exact ⟨private_key, public_key, hp.1, hp.2, hinit⟩

/-- **Step lemma.** -/
theorem KeyCacheInv.step {w w' : World τ ι Pub Priv} {label : Label τ ι}
    (hinv : KeyCacheInv lib w) (heff : Effect lib w label w') : KeyCacheInv lib w' := by
  cases heff with
  | wrotePrivate mtime content f hwrite =>
      refine ⟨?_, fun i p hholder => (hinv.held i p hholder).write_private hwrite⟩
      intro pm qm e hcache
      obtain ⟨a, b, ha, hb, hinit⟩ := hinv.cached pm qm e hcache
      exact ⟨a, b, ha.write hwrite, hb, hinit⟩
  | wrotePublic mtime content g hwrite =>
      refine ⟨?_, fun i p hholder => (hinv.held i p hholder).write_public hwrite⟩
      intro pm qm e hcache
      obtain ⟨a, b, ha, hb, hinit⟩ := hinv.cached pm qm e hcache
      exact ⟨a, b, ha, hb.write hwrite, hinit⟩
  | called i hfree => exact ⟨hinv.cached, hinv.held⟩
  | locked i hfree =>
      refine ⟨hinv.cached, ?_⟩
      intro j p hholder
      cases hholder
      trivial
  | went i ok p hholder hawaits => exact hinv.after (hinv.held i p hholder) hawaits
  | cancelledHolder i => exact ⟨hinv.cached, fun _ _ h => (by cases h)⟩
  | cancelledWaiting i => exact ⟨hinv.cached, hinv.held⟩

/-- **Run lemma.** -/
theorem KeyCacheInv.run {w w' : World τ ι Pub Priv} {labels : List (Label τ ι)}
    (hinv : KeyCacheInv lib w) (hrun : run (World.step lib) w labels = some w') :
    KeyCacheInv lib w' :=
  run_invariant (KeyCacheInv lib) (fun _ => True)
    (fun _ _ _ _ hv hstep => hv.step (effect_of_step lib hstep)) (fun _ _ => trivial) hinv hrun

/-! ## A call without a write -/

/-- What the call `i` has taken so far is current. -/
def CurrentFor (i : ι) (w : World τ ι Pub Priv) : Prop :=
  ∀ p, w.holder = some (i, p) → p.Current w.private_key w.public_key

omit [DecidableEq τ] [DecidableEq ι] in
/-- An await without a write keeps what was taken current. -/
theorem current_next {w : World τ ι Pub Priv} {p p' : Progress τ}
    (hp : p.Current w.private_key w.public_key) (hawaits : Awaits lib w p (.next p')) :
    p'.Current w.private_key w.public_key := by
  cases hawaits with
  | statPrivate => rfl
  | statPublic priv_mtime => exact ⟨hp, rfl⟩
  | readPrivate priv_mtime pub_mtime => exact hp
  | readPublic priv_mtime pub_mtime private_key => exact hp

/-- **Step lemma** for a call during which no file is written. -/
theorem CurrentFor.step {i : ι} {w w' : World τ ι Pub Priv} {label : Label τ ι}
    (hquiet : label.isWrite = false) (hcurrent : CurrentFor i w)
    (heff : Effect lib w label w') : CurrentFor i w' := by
  cases heff with
  | wrotePrivate mtime content f hwrite => cases hquiet
  | wrotePublic mtime content g hwrite => cases hquiet
  | called j hfree => exact hcurrent
  | locked j hfree =>
      intro p hholder
      cases hholder
      trivial
  | went j ok p hholder hawaits =>
      revert hawaits
      generalize w.outcome lib ok p = outcome
      intro hawaits q hafter
      cases outcome with
      | next p' =>
          cases hafter
          exact current_next (w := w) (hcurrent p hholder) hawaits
      | hit e => cases hafter
      | loaded pm qm e => cases hafter
      | raises => cases hafter
  | cancelledHolder j =>
      intro p hholder
      cases hholder
  | cancelledWaiting j => exact hcurrent

omit [DecidableEq τ] [DecidableEq ι] in
/-- What a call returns under current times. -/
theorem result_current {w : World τ ι Pub Priv} (hinv : KeyCacheInv lib w) {p : Progress τ}
    {outcome : Outcome τ Pub Priv} {e : RSAEncryption Pub Priv}
    (hfits : p.Fits w.private_key w.public_key) (hp : p.Current w.private_key w.public_key)
    (hawaits : Awaits lib w p outcome) (hresult : outcome.result = some e) :
    RSAEncryption.init lib w.public_key.content w.private_key.content = .ok e := by
  cases hawaits with
  | raises _ => cases hresult
  | statPrivate => cases hresult
  | hit priv_mtime e' hcache =>
      cases hresult
      obtain ⟨a, b, ha, hb, hinit⟩ := hinv.cached _ _ _ hcache
      rw [ha.current hp, hb.current rfl] at hinit
      exact hinit
  | statPublic priv_mtime => cases hresult
  | readPrivate priv_mtime pub_mtime => cases hresult
  | readPublic priv_mtime pub_mtime private_key => cases hresult
  | build priv_mtime pub_mtime private_key public_key e' hinit =>
      cases hresult
      rw [hfits.1.current hp.1, hfits.2.current hp.2] at hinit
      exact hinit

/-- A call holds nothing when it begins. -/
theorem currentFor_call {i : ι} {w w' : World τ ι Pub Priv}
    (hstep : w.step lib (.call i) = some w') : CurrentFor i w' := by
  cases effect_of_step lib hstep with
  | called _ hfree =>
      intro p hholder
      exact absurd hholder (hfree p)

theorem returned_go {w : World τ ι Pub Priv} {i : ι} {p : Progress τ}
    (hholder : w.holder = some (i, p)) (ok : Bool) :
    w.returned lib (.go i ok) = (w.outcome lib ok p).result.map (fun e => (i, e)) := by
  simp only [World.returned, hholder, if_pos]

theorem returned_eq_some {w : World τ ι Pub Priv} {label : Label τ ι} {i : ι}
    {e : RSAEncryption Pub Priv} (h : w.returned lib label = some (i, e)) :
    ∃ ok p, w.holder = some (i, p) ∧ (w.outcome lib ok p).result = some e := by
  cases label with
  | go j ok =>
      cases hholder : w.holder with
      | none => simp [World.returned, hholder] at h
      | some held =>
          obtain ⟨k, p⟩ := held
          simp only [World.returned, hholder] at h
          split at h
          next hkj =>
            subst hkj
            obtain ⟨e', hresult, heq⟩ := Option.map_eq_some_iff.1 h
            cases heq
            exact ⟨ok, p, rfl, hresult⟩
          next => cases h
  | _ => cases h

/-- Only a call that returns changes the cache, to what it returns. -/
theorem cache_of_effect {w w' : World τ ι Pub Priv} {label : Label τ ι}
    (heff : Effect lib w label w') (hchanged : w'.cache ≠ w.cache) :
    ∃ i e priv_mtime pub_mtime, w.returned lib label = some (i, e) ∧
      w'.cache = some (priv_mtime, pub_mtime, e) := by
  cases heff with
  | went i ok p hholder _ =>
      rw [returned_go hholder]
      cases houtcome : w.outcome lib ok p with
      | loaded pm qm e => exact ⟨i, e, pm, qm, rfl, rfl⟩
      | _ =>
          rw [houtcome] at hchanged
          exact absurd rfl hchanged
  | _ => exact absurd rfl hchanged

/-- **A call during which no file is written returns the encryptor of the files
as they are**, in every run.  The cache changes only when a call returns, to
what the call returns. -/
theorem getEncryptor_current (private_key public_key : Stamped τ String) :
    (∀ (before during : List (Label τ ι)) (i : ι) (w : World τ ι Pub Priv) (label : Label τ ι)
        (e : RSAEncryption Pub Priv),
      run (World.step lib) (World.initial private_key public_key)
        (before ++ .call i :: during) = some w →
      (∀ l ∈ during, l.isWrite = false) → w.returned lib label = some (i, e) →
      RSAEncryption.init lib w.public_key.content w.private_key.content = .ok e) ∧
    ∀ (labels : List (Label τ ι)) (w w' : World τ ι Pub Priv) (label : Label τ ι),
      run (World.step lib) (World.initial private_key public_key) labels = some w →
      w.step lib label = some w' → w'.cache ≠ w.cache →
      ∃ i e priv_mtime pub_mtime, w.returned lib label = some (i, e) ∧
        w'.cache = some (priv_mtime, pub_mtime, e) := by
  refine ⟨?_, ?_⟩
  · intro before during i w label e hrun hquiet hreturned
    obtain ⟨u, hbefore, hcall⟩ := run_append_eq_some.1 hrun
    obtain ⟨v, hstep, hduring⟩ := run_cons_eq_some.1 hcall
    have hinv := (initial_keyCacheInv lib private_key public_key).run hrun
    have hcurrent : CurrentFor i w :=
      run_invariant (CurrentFor i) (fun l => l.isWrite = false)
        (fun _ _ _ hl hv hs => hv.step hl (effect_of_step lib hs)) hquiet
        (currentFor_call hstep) hduring
    obtain ⟨ok, p, hholder, hresult⟩ := returned_eq_some hreturned
    exact result_current hinv (hinv.held i p hholder) (hcurrent p hholder)
      (awaits lib w ok p) hresult
  · intro labels w w' label _ hstep hchanged
    exact cache_of_effect (effect_of_step lib hstep) hchanged

end Steps

/-! ## A rotation during a call -/

abbrev rotated : List (Label Nat Nat) :=
  [.call 0, .lock 0, .go 0 true, .go 0 true, .go 0 true, .write .publicKey 1 "public 1",
    .write .privateKey 1 "private 1", .go 0 true, .go 0 true]

abbrev rotatedStart : World Nat Nat Unit Unit :=
  World.initial ⟨"private 0", 0, [], by simp⟩ ⟨"public 0", 0, [], by simp⟩

/-- The two keys of an encryptor in the cache. -/
def cachedPair (w : World Nat Nat Unit Unit) : Option (String × String) :=
  w.cache.map (fun c => (c.2.2.private_key_pem, c.2.2.public_key_pem))

-- The first call caches two keys that do not belong together.
example : (run (World.step RSAEncryption.plain) rotatedStart rotated).bind cachedPair =
    some ("private 0", "public 1") := by
  rfl

/-- The awaits of the next call, up to its last. -/
abbrev reloaded : List (Label Nat Nat) :=
  [.lock 1, .go 1 true, .go 1 true, .go 1 true, .go 1 true]

theorem reloaded_isSome : (run (World.step RSAEncryption.plain) rotatedStart
    (rotated ++ .call 1 :: reloaded)).isSome := by
  rfl

/-- The next call takes the new times, and returns the two keys as they are. -/
theorem getEncryptor_current_reloaded : ∃ w,
    run (World.step RSAEncryption.plain) rotatedStart (rotated ++ .call 1 :: reloaded) = some w ∧
      w.returned RSAEncryption.plain (.go 1 true) = some (1, ⟨"public 1", "private 1", (), ()⟩) ∧
      RSAEncryption.init RSAEncryption.plain w.public_key.content w.private_key.content =
        .ok ⟨"public 1", "private 1", (), ()⟩ := by
  have hrun := (Option.some_get reloaded_isSome).symm
  have hreturned : ((run (World.step RSAEncryption.plain) rotatedStart
      (rotated ++ .call 1 :: reloaded)).get reloaded_isSome).returned RSAEncryption.plain
        (.go 1 true) = some (1, ⟨"public 1", "private 1", (), ()⟩) := rfl
  exact ⟨_, hrun, hreturned,
    (getEncryptor_current _ _).1 rotated reloaded 1 _ (.go 1 true) _ hrun (by decide) hreturned⟩

end ProverNetwork.Ports.KeyCache
