import Mathlib.Data.BitVec
import Mathlib.Logic.Function.Basic
/-!
# Proxy — the "bytes sent" counters

For every datagram it reads, `Proxy.toRemote` spawns a goroutine that ranges
over the peer entry's `ServerMap` and, for each server, reads the peer's
metric with `metrics.GetMetric`, adds the datagram's length to
`TrafficSent`, and writes the metric back with `metrics.UpdateMetric`. Each
call is atomic; the read-modify-write is not.

So a counter is not the sum of what was sent: two goroutines that read the
same value each write back their own sum, and the later write wins
(`trafficSent_loses_overlapping`). What every interleaving keeps is that the
counter is its initial value plus the lengths of some of the goroutines that
have updated it, each at most once, and that among them is every goroutine
whose read-modify-write overlapped no other's: one that, at no state of the
run, held its read beside another goroutine's read of the same server
(`trafficSent_counted`). `TrafficSent` is an `int64`, so the sums are taken
modulo `2^64`.
-/

namespace Netclient

namespace Proxy

/-- A metric goroutine, `go func(n int, cfg models.Proxy) {…}(n, p.Config)`. -/
structure Goroutine where
  /-- The length of its datagram. -/
  n : Nat
  /-- The servers its `range` over `ServerMap` has updated. -/
  done : List String
  /-- The servers still to come, the current one first. -/
  todo : List String
  /-- The `TrafficSent` that `GetMetric` returned for the current server, not yet written back. -/
  read : Option (BitVec 64)
  deriving DecidableEq, Repr

instance : Inhabited Goroutine := ⟨⟨0, [], [], none⟩⟩

/-- The peer entry's `ServerMap`: its servers, each once. -/
structure ServerMap where
  servers : List String
  nodup : servers.Nodup

/-- The peer's `TrafficSent` counter at each server, and the goroutines spawned. -/
structure Meters where
  trafficSent : String → BitVec 64
  gs : Nat → Goroutine
  spawned : Nat

/-- What can happen next. -/
inductive MEvent
  /-- `toRemote` reads a datagram of `n` bytes; its goroutine ranges over the
  servers in `order`. -/
  | spawn (n : Nat) (order : List String)
  /-- Goroutine `g` calls `metrics.GetMetric` for its current server. -/
  | get (g : Nat)
  /-- Goroutine `g` adds its length and calls `metrics.UpdateMetric`. -/
  | update (g : Nat)
  deriving DecidableEq, Repr

namespace Meters

/-- Counters at `init`, no goroutine yet. -/
def start (init : String → BitVec 64) : Meters := ⟨init, fun _ => default, 0⟩

/-- One event. A goroutine's `range` visits every server of `ServerMap` once,
in an order of the runtime's choosing. -/
def step (sm : ServerMap) (m : Meters) : MEvent → Option Meters
  | .spawn n order =>
    if order.Perm sm.servers then
      some { m with gs := Function.update m.gs m.spawned ⟨n, [], order, none⟩, spawned := m.spawned + 1 }
    else none
  | .get g =>
    if g < m.spawned then
      match m.gs g with
      | ⟨n, d, s :: rest, none⟩ =>
        some { m with gs := Function.update m.gs g ⟨n, d, s :: rest, some (m.trafficSent s)⟩ }
      | _ => none
    else none
  | .update g =>
    if g < m.spawned then
      match m.gs g with
      | ⟨n, d, s :: rest, some v⟩ =>
        some { m with
          trafficSent := Function.update m.trafficSent s (v + BitVec.ofNat 64 n)
          gs := Function.update m.gs g ⟨n, d ++ [s], rest, none⟩ }
      | _ => none
    else none

/-- The events in order. -/
def run (sm : ServerMap) : Meters → List MEvent → Option Meters
  | m, [] => some m
  | m, e :: es => (m.step sm e).bind (run sm · es)

/-- The lengths of the goroutines that have updated server `s`. -/
def completed (m : Meters) (s : String) : BitVec 64 :=
  (((List.range m.spawned).filter fun i => s ∈ (m.gs i).done).map
    fun i => BitVec.ofNat 64 (m.gs i).n).sum

/-- Goroutine `g` holds the value of server `s`'s counter it read, not yet written back. -/
def holding (m : Meters) (g : Nat) (s : String) : Bool :=
  (m.gs g).todo.head? == some s && (m.gs g).read.isSome

/-- The states a run passes through, the first included, up to the last or to
the first event that cannot happen. -/
def states (sm : ServerMap) : Meters → List MEvent → List Meters
  | m, [] => [m]
  | m, e :: es => m :: match m.step sm e with
    | some m' => states sm m' es
    | none => []

/-- Goroutine `g`'s read-modify-write of server `s` overlapped no other
goroutine's in the states `ms`: at none of them did another goroutine hold a
value read from `s` while `g` held one. -/
def Alone (ms : List Meters) (g : Nat) (s : String) : Prop :=
  ∀ x ∈ ms, x.holding g s → ∀ h < x.spawned, h ≠ g → x.holding h s = false

/-- `v` is `s`'s initial counter plus the lengths of some of the goroutines
that have updated `s`, each at most once, among them every one that was alone
on `s` in the states `ms`. -/
def Counted (ms : List Meters) (m : Meters) (init : String → BitVec 64) (s : String)
    (v : BitVec 64) : Prop :=
  ∃ S : List Nat, S.Nodup ∧ (∀ i ∈ S, i < m.spawned ∧ s ∈ (m.gs i).done) ∧
    (∀ i < m.spawned, s ∈ (m.gs i).done → Alone ms i s → i ∈ S) ∧
    v = init s + (S.map fun i => BitVec.ofNat 64 (m.gs i).n).sum

/-- What every interleaving keeps, relative to states `ms` that include every
state the run has passed through. -/
structure Inv (ms : List Meters) (m : Meters) (init : String → BitVec 64) : Prop where
  /-- Every counter is counted. -/
  counter : ∀ s, Counted ms m init s (m.trafficSent s)
  /-- So is every value a goroutine has read and not written back. -/
  held : ∀ g < m.spawned, ∀ s rest v, (m.gs g).todo = s :: rest → (m.gs g).read = some v →
    Counted ms m init s v
  /-- A goroutine updates each server once. -/
  nodup : ∀ g < m.spawned, ((m.gs g).done ++ (m.gs g).todo).Nodup

/-- `m'` has every goroutine of `m`, with its length, and each has updated at
least the servers it had. -/
structure Grows (m m' : Meters) : Prop where
  spawned_le : m.spawned ≤ m'.spawned
  n_eq : ∀ i < m.spawned, (m'.gs i).n = (m.gs i).n
  done_sub : ∀ i < m.spawned, (m.gs i).done ⊆ (m'.gs i).done

variable {ms : List Meters} {init : String → BitVec 64} {sm : ServerMap} {m m' : Meters}

/-- A goroutine that holds a read of `s` at a state of `ms` beside another
one was not alone on `s`. -/
theorem not_alone {g h : Nat} {s : String} (hm : m ∈ ms) (hg : m.holding g s) (hh : h < m.spawned)
    (hne : h ≠ g) (hhs : m.holding h s) : ¬ Alone ms g s :=
  fun ha => by simp [ha m hm hg h hh hne] at hhs

/-- A goroutine whose current server is `s` and which has read a value holds a read of `s`. -/
theorem holding_of_read {g : Nat} {s : String} {rest : List String} {v : BitVec 64}
    (ht : (m.gs g).todo = s :: rest) (hr : (m.gs g).read = some v) : m.holding g s := by
  simp [holding, ht, hr]

/-- Counted values stay counted as the goroutines grow, as long as every new
updater of `s` that was alone on it was one before. -/
theorem Counted.mono {s : String} {v : BitVec 64} (h : Counted ms m init s v) (hg : m.Grows m')
    (hnew : ∀ i < m'.spawned, s ∈ (m'.gs i).done → Alone ms i s → i < m.spawned ∧ s ∈ (m.gs i).done) :
    Counted ms m' init s v := by
  obtain ⟨S, hnd, hS, hall, rfl⟩ := h
  refine ⟨S, hnd, fun i hi => ⟨(hS i hi).1.trans_le hg.spawned_le,
    hg.done_sub i (hS i hi).1 (hS i hi).2⟩, fun i hi hd ha => ?_, ?_⟩
  · exact hall i (hnew i hi hd ha).1 (hnew i hi hd ha).2 ha
  · congr 2
    exact List.map_congr_left fun i hi => by simp only [hg.n_eq i (hS i hi).1]

theorem inv_start (ms : List Meters) (init : String → BitVec 64) : (start init).Inv ms init :=
  ⟨fun _ => ⟨[], List.nodup_nil, by simp, fun _ h => absurd h (Nat.not_lt_zero _), by simp [start]⟩,
    fun _ h => absurd h (Nat.not_lt_zero _), fun _ h => absurd h (Nat.not_lt_zero _)⟩

/-- A goroutine replaced by one with the same length and at least its servers
updated: everything counted stays counted. -/
theorem grows_update {g : Nat} {x : Goroutine} (hn : x.n = (m.gs g).n) (hd : (m.gs g).done ⊆ x.done)
    (ts : String → BitVec 64) :
    m.Grows { m with trafficSent := ts, gs := Function.update m.gs g x } := by
  refine ⟨le_rfl, fun i _ => ?_, fun i _ => ?_⟩ <;> by_cases hi : i = g
  · subst hi; simpa using hn
  · simp [Function.update_apply, hi]
  · subst hi; simpa using hd
  · simp [Function.update_apply, hi]

/-- Replacing goroutine `g` by one that has updated the same servers makes no
new updater. -/
theorem done_update {g : Nat} {x : Goroutine} (hd : x.done = (m.gs g).done) (s : String) (i : Nat) :
    s ∈ (Function.update m.gs g x i).done → s ∈ (m.gs i).done := by
  by_cases hi : i = g
  · subst hi; simp [hd]
  · simp [Function.update_apply, hi]

/-- **`GetMetric`**: the goroutine holds the current counter, which is counted. -/
theorem inv_get {g : Nat} (h : m.Inv ms init) (hs : m.step sm (.get g) = some m') : m'.Inv ms init := by
  simp only [step] at hs
  split at hs
  case isFalse => cases hs
  rename_i hg
  split at hs
  case h_2 => cases hs
  rename_i n d s rest hgs
  cases hs
  have hgr := grows_update (m := m) (g := g) (x := ⟨n, d, s :: rest, some (m.trafficSent s)⟩)
    (by simp [hgs]) (by simp [hgs]) m.trafficSent
  have hnew : ∀ s', ∀ i < m.spawned,
      s' ∈ (Function.update m.gs g ⟨n, d, s :: rest, some (m.trafficSent s)⟩ i).done →
      Alone ms i s' → i < m.spawned ∧ s' ∈ (m.gs i).done :=
    fun s' i hi hd _ => ⟨hi, done_update (by simp [hgs]) s' i hd⟩
  refine ⟨fun s' => (h.counter s').mono hgr (hnew s'), fun g' hg' s' rest' v htodo hread => ?_,
    fun g' hg' => ?_⟩
  · by_cases hgg : g' = g
    · subst hgg
      simp only [Function.update_same, List.cons.injEq, Option.some.injEq] at htodo hread
      obtain ⟨rfl, -⟩ := htodo
      exact hread ▸ (h.counter s).mono hgr (hnew s)
    · simp only [Function.update_apply, hgg, if_false] at htodo hread
      exact (h.held g' hg' s' rest' v htodo hread).mono hgr (hnew s')
  · by_cases hgg : g' = g
    · subst hgg; simpa [hgs] using h.nodup g' hg
    · simpa [Function.update_apply, hgg] using h.nodup g' hg'

/-- **`UpdateMetric`**: the value written back is the one read plus the
goroutine's length, and the goroutine had not counted itself for this server.
Another goroutine holding a read of the same server sees the writer as not
alone, since both held at once. -/
theorem inv_update {g : Nat} (h : m.Inv ms init) (hm : m ∈ ms) (hs : m.step sm (.update g) = some m') :
    m'.Inv ms init := by
  simp only [step] at hs
  split at hs
  case isFalse => cases hs
  rename_i hg
  split at hs
  case h_2 => cases hs
  rename_i n d s rest v hgs
  cases hs
  have hgr := grows_update (m := m) (g := g) (x := ⟨n, d ++ [s], rest, none⟩) (by simp [hgs])
    (by simp [hgs]) (Function.update m.trafficSent s (v + BitVec.ofNat 64 n))
  have hnd := h.nodup g hg
  rw [hgs] at hnd
  have hsd : s ∉ d := fun hd => (List.nodup_append.1 hnd).2.2 hd (List.mem_cons_self s rest)
  have hgs' : m.holding g s :=
    holding_of_read (by simp [hgs] : (m.gs g).todo = s :: rest) (by simp [hgs] : (m.gs g).read = some v)
  /- Only `g` has become an updater, and only of `s`. -/
  have hdone : ∀ s' i, s' ∈ (Function.update m.gs g ⟨n, d ++ [s], rest, none⟩ i).done →
      i = g ∧ s' = s ∨ s' ∈ (m.gs i).done := by
    intro s' i hd
    by_cases hi : i = g
    · subst hi
      simp only [Function.update_same, List.mem_append, List.mem_singleton] at hd
      rcases hd with hd | rfl
      · exact .inr (by simpa [hgs] using hd)
      · exact .inl ⟨rfl, rfl⟩
    · simp only [Function.update_apply, hi, if_false] at hd
      exact .inr hd
  /- Every other server: nothing new. -/
  have hnew : ∀ s', s' ≠ s → ∀ i < m.spawned, s' ∈ (Function.update m.gs g ⟨n, d ++ [s], rest, none⟩ i).done →
      Alone ms i s' → i < m.spawned ∧ s' ∈ (m.gs i).done := fun s' hss i hi hd _ =>
    ⟨hi, (hdone s' i hd).resolve_left fun hc => hss hc.2⟩
  refine ⟨fun s' => ?_, fun g' hg' s' rest' v' htodo hread => ?_, fun g' hg' => ?_⟩
  · by_cases hss : s' = s
    · subst hss
      obtain ⟨S, hSnd, hS, hall, hv⟩ := h.held g hg s' rest v (by simp [hgs]) (by simp [hgs])
      have hgS : g ∉ S := fun hgS => hsd (by simpa [hgs] using (hS g hgS).2)
      refine ⟨g :: S, List.nodup_cons.2 ⟨hgS, hSnd⟩, fun i hi => ?_, fun i hi hd ha => ?_, ?_⟩
      · rcases List.mem_cons.1 hi with rfl | hi
        · exact ⟨hg, by simp⟩
        · exact ⟨(hS i hi).1, hgr.done_sub i (hS i hi).1 (hS i hi).2⟩
      · rcases hdone s' i hd with ⟨rfl, -⟩ | hd
        · exact List.mem_cons_self _ _
        · exact List.mem_cons_of_mem _ (hall i hi hd ha)
      · have hsum : (S.map fun i => BitVec.ofNat 64 ((Function.update m.gs g ⟨n, d ++ [s'], rest, none⟩) i).n) =
            S.map fun i => BitVec.ofNat 64 (m.gs i).n :=
          List.map_congr_left fun i hi => by rw [hgr.n_eq i (hS i hi).1]
        simp only [Function.update_same, List.map_cons, List.sum_cons, hsum, hv]
        rw [BitVec.add_assoc, BitVec.add_comm _ (BitVec.ofNat 64 n)]
    · show Counted ms _ init s' (Function.update m.trafficSent s _ s')
      rw [Function.update_noteq hss]
      exact (h.counter s').mono hgr (hnew s' hss)
  · by_cases hgg : g' = g
    · subst hgg; simp at hread
    · simp only [Function.update_apply, hgg, if_false] at htodo hread
      refine (h.held g' hg' s' rest' v' htodo hread).mono hgr fun i hi hd ha => ?_
      rcases hdone s' i hd with ⟨rfl, rfl⟩ | hd
      · exact absurd ha (not_alone hm hgs' hg' hgg (holding_of_read htodo hread))
      · exact ⟨hi, hd⟩
  · by_cases hgg : g' = g
    · subst hgg; simpa [hgs] using h.nodup g' hg
    · simpa [Function.update_apply, hgg] using h.nodup g' hg'

/-- **A spawned goroutine** has updated nothing and holds nothing. -/
theorem inv_spawn {n : Nat} {order : List String} (h : m.Inv ms init)
    (hs : m.step sm (.spawn n order) = some m') : m'.Inv ms init := by
  simp only [step] at hs
  split at hs
  case isFalse => cases hs
  rename_i hperm
  cases hs
  have hgr : m.Grows
      { m with gs := Function.update m.gs m.spawned ⟨n, [], order, none⟩, spawned := m.spawned + 1 } :=
    ⟨Nat.le_succ _, fun i hi => by simp [Function.update_apply, Nat.ne_of_lt hi],
      fun i hi => by simp [Function.update_apply, Nat.ne_of_lt hi]⟩
  have hnew : ∀ s, ∀ i < m.spawned + 1, s ∈ (Function.update m.gs m.spawned ⟨n, [], order, none⟩ i).done →
      Alone ms i s → i < m.spawned ∧ s ∈ (m.gs i).done := by
    intro s i hi hd _
    by_cases hii : i = m.spawned
    · subst hii; simp at hd
    · simp only [Function.update_apply, hii, if_false] at hd
      exact ⟨Nat.lt_of_le_of_ne (Nat.le_of_lt_succ hi) hii, hd⟩
  refine ⟨fun s => (h.counter s).mono hgr (hnew s), fun g hg s rest v htodo hread => ?_, fun g hg => ?_⟩
  · by_cases hgg : g = m.spawned
    · subst hgg; simp at hread
    · simp only [Function.update_apply, hgg, if_false] at htodo hread
      exact (h.held g (Nat.lt_of_le_of_ne (Nat.le_of_lt_succ hg) hgg) s rest v htodo hread).mono hgr
        (hnew s)
  · by_cases hgg : g = m.spawned
    · subst hgg; simpa using hperm.nodup_iff.2 sm.nodup
    · simpa [Function.update_apply, hgg] using h.nodup g (Nat.lt_of_le_of_ne (Nat.le_of_lt_succ hg) hgg)

theorem inv_step {e : MEvent} (h : m.Inv ms init) (hm : m ∈ ms) (hs : m.step sm e = some m') :
    m'.Inv ms init := by
  cases e with
  | spawn n order => exact inv_spawn h hs
  | get g => exact inv_get h hs
  | update g => exact inv_update h hm hs

/-- The invariant over a run whose states are all among `ms`. -/
theorem inv_run {evs : List MEvent} (h : m.Inv ms init) (hsub : m.states sm evs ⊆ ms)
    (hrun : m.run sm evs = some m') : m'.Inv ms init := by
  induction evs generalizing m with
  | nil => cases hrun; exact h
  | cons e es ih =>
    obtain ⟨m₁, h₁, hrest⟩ := Option.bind_eq_some.1 hrun
    have hsub' : m :: m₁.states sm es ⊆ ms := by simpa [states, h₁] using hsub
    exact ih (inv_step h (hsub' (List.mem_cons_self _ _)) h₁)
      (fun x hx => hsub' (List.mem_cons_of_mem _ hx)) hrest

/-- **Every counter is its initial value plus the lengths of some of the
goroutines that have updated it, each at most once, among them every one
whose read-modify-write overlapped no other's**, modulo `2^64`, at every state
of every interleaving of the metric goroutines. -/
theorem trafficSent_counted (sm : ServerMap) (init : String → BitVec 64) (evs : List MEvent)
    {m : Meters} (h : (start init).run sm evs = some m) (s : String) :
    ∃ S : List Nat, S.Nodup ∧ (∀ i ∈ S, i < m.spawned ∧ s ∈ (m.gs i).done) ∧
      (∀ i < m.spawned, s ∈ (m.gs i).done → Alone ((start init).states sm evs) i s → i ∈ S) ∧
      m.trafficSent s = init s + (S.map fun i => BitVec.ofNat 64 (m.gs i).n).sum :=
  (inv_run (inv_start _ init) (List.Subset.refl _) h).counter s

/-- One server. -/
def oneServer : ServerMap := ⟨["s"], by decide⟩

theorem trafficSent_counted_single :
    ∃ m, (start fun _ => 0).run oneServer [.spawn 3 ["s"], .get 0, .update 0] = some m ∧
      ∃ S : List Nat, S.Nodup ∧ (∀ i ∈ S, i < m.spawned ∧ "s" ∈ (m.gs i).done) ∧
        (∀ i < m.spawned, "s" ∈ (m.gs i).done →
          Alone ((start fun _ => 0).states oneServer [.spawn 3 ["s"], .get 0, .update 0]) i "s" →
            i ∈ S) ∧
        m.trafficSent "s" = 0 + (S.map fun i => BitVec.ofNat 64 (m.gs i).n).sum :=
  ⟨_, rfl, trafficSent_counted oneServer (fun _ => 0) [.spawn 3 ["s"], .get 0, .update 0] rfl "s"⟩

/-- Two goroutines, of one and two bytes, read the counter before either
writes it back; the two-byte one writes first. -/
def overlappingUpdates : List MEvent :=
  [.spawn 1 ["s"], .spawn 2 ["s"], .get 0, .get 1, .update 1, .update 0]

/-- **Overlapping read-modify-writes lose bytes.** Both goroutines have
updated the counter, which ends at `1`, not `3`; it went from `2` down to
`1` on the last write. -/
theorem trafficSent_loses_overlapping :
    ¬ ∀ (sm : ServerMap) (init : String → BitVec 64) (evs : List MEvent) (m : Meters),
      (start init).run sm evs = some m → ∀ s, m.trafficSent s = init s + m.completed s := by
  intro h
  obtain ⟨m, hrun, h1, h3⟩ : ∃ m, (start fun _ => 0).run oneServer overlappingUpdates = some m ∧
      m.trafficSent "s" = 1 ∧ m.completed "s" = 3 :=
    ⟨_, rfl, by decide, by decide⟩
  have := h oneServer _ _ m hrun "s"
  rw [h1, h3] at this
  exact absurd this (by decide)

end Meters

end Proxy

end Netclient
