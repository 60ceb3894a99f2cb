import Netclient.Common.GoMap
import Mathlib.Data.List.Infix
/-!
# Functions — the message cache

The package keeps, for each network, the last message of each kind
(`lastNodeUpdate`, `lastDNSUpdate`, `lastALLDNSUpdate`) in `messageCache`: a
`sync.Map` from the text `network + which` to the message and the time it
was stored. `insert` stores; `read` hands the message back, or `""` when
there is none, when its time is the zero `Time`, or when it is more than a
day old, and in that last case deletes it.

What the cache is for is a map from a network and a kind to the last
message stored for them, read back while it is at most a day old
(`AbsCache`). The concrete key is the plain concatenation of the two, which
is no worse for it: the three kinds `lnu`, `ldu` and `ladu` are none a
suffix of another, so no two networks and kinds share a key
(`cacheKey_inj`). With the clock readings of the calls positive and
non-decreasing, every run of `read`s and `insert`s returns what the abstract
cache returns (`runCache_refines`); the deletion of an expired entry cannot
be seen, since an entry stays expired once it is.
-/

namespace Netclient

namespace Functions

/-- `lastNodeUpdate`. -/
def lastNodeUpdate : String := "lnu"

/-- `lastDNSUpdate`. -/
def lastDNSUpdate : String := "ldu"

/-- `lastALLDNSUpdate`. -/
def lastALLDNSUpdate : String := "ladu"

/-- The kinds of message the cache is keyed by. -/
def cacheKinds : List String := [lastNodeUpdate, lastDNSUpdate, lastALLDNSUpdate]

/-- A `cachedMessage`. A `time.Time` is its reading in nanoseconds, `0` for
the zero `Time`; the times `time.Now` returns carry the monotonic reading,
and `After` compares by it. -/
structure CachedMessage where
  message : String
  lastSeen : Int
  deriving DecidableEq, Repr

/-- `time.Hour`, in nanoseconds. -/
def hour : Int := 60 * 60 * 1000000000

/-- `read(network, which)` at time `now`: the message, and `messageCache`
after the call. -/
def read (messageCache : GoMap String CachedMessage) (now : Int) (network which : String) :
    String × GoMap String CachedMessage :=
  match messageCache.get? (network ++ which) with
  | some readMessage =>
    if readMessage.lastSeen = 0 then ("", messageCache)
    else if readMessage.lastSeen + hour * 24 < now then
      ("", messageCache.erase (network ++ which))
    else (readMessage.message, messageCache)
  | none => ("", messageCache)

/-- `insert(network, which, cache)` at time `now`. -/
def insert (messageCache : GoMap String CachedMessage) (now : Int) (network which cache : String) :
    GoMap String CachedMessage :=
  messageCache.insert (network ++ which) ⟨cache, now⟩

/-- A call on the cache. -/
inductive CacheCall
  | read (network which : String)
  | insert (network which cache : String)
  deriving DecidableEq, Repr

/-- The kind a call names. -/
def CacheCall.which : CacheCall → String
  | .read _ which => which
  | .insert _ which _ => which

/-- A run of calls, each with the reading `time.Now()` takes in it: what the
`read`s return, in order. -/
def runCache : GoMap String CachedMessage → List (CacheCall × Int) → List String
  | _, [] => []
  | c, (.read network which, now) :: calls =>
    (read c now network which).1 :: runCache (read c now network which).2 calls
  | c, (.insert network which cache, now) :: calls =>
    runCache (insert c now network which cache) calls

/-! ## What the cache is for -/

/-- **The abstract cache**: the last message stored for each network and
kind, with its time. -/
def AbsCache : Type := String × String → Option CachedMessage

namespace AbsCache

/-- Nothing stored. -/
def empty : AbsCache := fun _ => none

/-- The last message for the network and kind, while it is at most a day old. -/
def read (a : AbsCache) (now : Int) (network which : String) : String :=
  match a (network, which) with
  | some m => if m.lastSeen + hour * 24 < now then "" else m.message
  | none => ""

/-- Storing replaces the message for the network and kind. -/
def insert (a : AbsCache) (now : Int) (network which cache : String) : AbsCache :=
  Function.update a (network, which) (some ⟨cache, now⟩)

/-- The abstract run: what the `read`s return. -/
def run : AbsCache → List (CacheCall × Int) → List String
  | _, [] => []
  | a, (.read network which, now) :: calls => a.read now network which :: run a calls
  | a, (.insert network which cache, now) :: calls => run (a.insert now network which cache) calls

end AbsCache

/-! ## The keys -/

/-- No kind is a suffix of another. -/
theorem cacheKinds_suffix_free :
    ∀ w ∈ cacheKinds, ∀ w' ∈ cacheKinds, w.data <:+ w'.data → w = w' := by
  decide

/-- **Distinct networks and kinds have distinct keys.** Two keys
`network ++ which` of the three kinds are equal only for the same network
and kind. -/
theorem cacheKey_inj {network network' which which' : String}
    (h : network ++ which = network' ++ which') (hw : which ∈ cacheKinds)
    (hw' : which' ∈ cacheKinds) : network = network' ∧ which = which' := by
  have hd := congrArg String.data h
  simp only [String.data_append] at hd
  have hs : which.data <:+ which'.data ∨ which'.data <:+ which.data :=
    List.suffix_or_suffix_of_suffix (hd ▸ List.suffix_append _ _) (List.suffix_append _ _)
  obtain rfl : which = which' := hs.elim (cacheKinds_suffix_free _ hw _ hw')
    fun hs => (cacheKinds_suffix_free _ hw' _ hw hs).symm
  exact ⟨String.ext (List.append_cancel_right hd), rfl⟩

/-! ## The refinement -/

/-- The cache `c` holds what `a` holds at time `t`: for each network and
kind, the same entry, or none where `a`'s entry was more than a day old
already at `t`. Every entry of `a` was stored at a positive time. -/
structure Refines (c : GoMap String CachedMessage) (a : AbsCache) (t : Int) : Prop where
  entry : ∀ network, ∀ which ∈ cacheKinds, c.get? (network ++ which) = a (network, which) ∨
    c.get? (network ++ which) = none ∧
      ∃ m, a (network, which) = some m ∧ m.lastSeen + hour * 24 < t
  pos : ∀ k m, a k = some m → 0 < m.lastSeen

variable {c : GoMap String CachedMessage} {a : AbsCache} {t now : Int} {network which : String}

theorem refines_empty : Refines GoMap.empty AbsCache.empty 0 :=
  ⟨fun _ _ _ => .inl rfl, fun _ _ h => nomatch h⟩

theorem Refines.mono (h : Refines c a t) (ht : t ≤ now) : Refines c a now :=
  ⟨fun n w hw => (h.entry n w hw).imp_right fun ⟨he, m, hm, hx⟩ => ⟨he, m, hm, by omega⟩, h.pos⟩

/-- Deleting an entry that is expired in `a` keeps the refinement. -/
theorem Refines.erase (h : Refines c a t) (hw : which ∈ cacheKinds) {m : CachedMessage}
    (hm : a (network, which) = some m) (hx : m.lastSeen + hour * 24 < t) :
    Refines (c.erase (network ++ which)) a t := by
  refine ⟨fun n w hw' => ?_, h.pos⟩
  by_cases hk : n ++ w = network ++ which
  · obtain ⟨rfl, rfl⟩ := cacheKey_inj hk hw' hw
    exact .inr ⟨by simp, m, hm, hx⟩
  · simpa only [GoMap.get?_erase, if_neg hk] using h.entry n w hw'

/-- **One `insert`.** Stored at a later positive time, under a kind, the
message is the abstract cache's for its network and kind. -/
theorem Refines.insert (h : Refines c a t) (ht : t ≤ now) (hnow : 0 < now)
    (hw : which ∈ cacheKinds) (cache : String) :
    Refines (insert c now network which cache) (a.insert now network which cache) now := by
  refine ⟨fun n w hw' => ?_, fun k m hk => ?_⟩
  · by_cases hk : n ++ w = network ++ which
    · obtain ⟨rfl, rfl⟩ := cacheKey_inj hk hw' hw
      exact .inl (by simp [Functions.insert, AbsCache.insert])
    · have hne : (n, w) ≠ (network, which) := fun he => hk (by cases he; rfl)
      simp only [Functions.insert, AbsCache.insert, GoMap.get?_insert, if_neg hk,
        Function.update_noteq hne]
      exact (h.mono ht).entry n w hw'
  · simp only [AbsCache.insert, Function.update_apply] at hk
    split at hk
    · cases hk
      exact hnow
    · exact h.pos k m hk

/-- **One `read`.** At a later time, under a kind, the cache returns what
the abstract cache returns, and still refines it. -/
theorem Refines.read (h : Refines c a t) (ht : t ≤ now) (network : String)
    (hw : which ∈ cacheKinds) :
    (read c now network which).1 = a.read now network which ∧
      Refines (read c now network which).2 a now := by
  have hn := h.mono ht
  rcases h.entry network which hw with he | ⟨he, m, hm, hx⟩
  · cases hm : a (network, which) with
    | none => simp only [Functions.read, he, hm, AbsCache.read, true_and]; exact hn
    | some m =>
      have hz : m.lastSeen ≠ 0 := (h.pos _ _ hm).ne'
      by_cases hx : m.lastSeen + hour * 24 < now
      · simp only [Functions.read, he, hm, AbsCache.read, if_neg hz, if_pos hx, true_and]
        exact hn.erase hw hm hx
      · simp only [Functions.read, he, hm, AbsCache.read, if_neg hz, if_neg hx, true_and]
        exact hn
  · simp only [Functions.read, he, AbsCache.read, hm, if_pos (show m.lastSeen + hour * 24 < now
      by omega), true_and]
    exact hn

/-- The run from a refining cache, by induction over the calls. -/
theorem runCache_of_refines : ∀ (calls : List (CacheCall × Int)) {c : GoMap String CachedMessage}
    {a : AbsCache} {t : Int}, Refines c a t → (∀ x ∈ calls, x.1.which ∈ cacheKinds) →
    (∀ x ∈ calls, 0 < x.2) → (calls.map Prod.snd).Chain (· ≤ ·) t →
    runCache c calls = a.run calls
  | [], _, _, _, _, _, _, _ => rfl
  | (.read network which, now) :: calls, c, a, t, h, hw, hp, hc => by
    simp only [List.map_cons, List.chain_cons] at hc
    have hw₀ : which ∈ cacheKinds := hw _ (List.mem_cons_self _ _)
    obtain ⟨h1, h2⟩ := h.read hc.1 network hw₀
    rw [runCache, AbsCache.run, h1, runCache_of_refines calls h2
      (fun x hx => hw x (List.mem_cons_of_mem _ hx)) (fun x hx => hp x (List.mem_cons_of_mem _ hx))
      hc.2]
  | (.insert network which cache, now) :: calls, c, a, t, h, hw, hp, hc => by
    simp only [List.map_cons, List.chain_cons] at hc
    exact runCache_of_refines calls
      (h.insert hc.1 (hp _ (List.mem_cons_self _ _)) (hw _ (List.mem_cons_self _ _)) cache)
      (fun x hx => hw x (List.mem_cons_of_mem _ hx)) (fun x hx => hp x (List.mem_cons_of_mem _ hx))
      hc.2

/-- **The message cache refines the abstract cache.** For every run of
`read`s and `insert`s on the empty cache, each under one of the three kinds,
with positive non-decreasing clock readings, every `read` returns the last
message stored for its network and kind while that is at most a day old,
and `""` otherwise. -/
theorem runCache_refines (calls : List (CacheCall × Int))
    (hw : ∀ x ∈ calls, x.1.which ∈ cacheKinds) (hp : ∀ x ∈ calls, 0 < x.2)
    (hc : (calls.map Prod.snd).Chain' (· ≤ ·)) :
    runCache GoMap.empty calls = AbsCache.empty.run calls := by
  refine runCache_of_refines calls refines_empty hw hp (List.Chain'.cons' hc fun y hy => ?_)
  obtain ⟨x, hx, rfl⟩ := List.mem_map.1 (List.mem_of_mem_head? hy)
  exact (hp x hx).le

/-- A node update stored at time 1 under network `net`, read back at time 2,
read under the DNS kind, and read again a day after it was stored. -/
def sampleCalls : List (CacheCall × Int) :=
  [(.insert "net" lastNodeUpdate "m", 1), (.read "net" lastNodeUpdate, 2),
    (.read "net" lastDNSUpdate, 3), (.read "net" lastNodeUpdate, hour * 24 + 2)]

theorem runCache_sample : runCache GoMap.empty sampleCalls = ["m", "", ""] :=
  (runCache_refines sampleCalls (by decide) (by decide) (by simp [sampleCalls, hour])).trans
    (by decide)

end Functions

end Netclient
