import Mathlib.Data.BitVec
/-!
# Proxy — the liveness check

`PeerConnectionStatus` fetches the tunnel interface's peer statistics with
`wg.GetPeers`, takes the first entry whose public key prints as the key it
is given, and reports the peer connected when that entry's last handshake
is less than three minutes old and its received plus transmitted bytes are
above zero.

The byte counters are `int64`s (the kernel's `u64` counters, converted), and
their sum is an `int64` addition, which wraps: the test is on the sum modulo
`2^64`, read back signed (`peerConnectionStatus_iff`). It agrees with the
mathematical sum whenever that sum fits in an `int64`, and not otherwise:
two counters of `2^62` bytes sum to `-2^63`, and the peer is reported not
connected (`status_ignores_wrapped_sum`).
-/

namespace Netclient

namespace Proxy

/-- A `wgtypes.Peer` as `PeerConnectionStatus` reads it: its public key as
`PublicKey.String()` prints it, its last handshake in nanoseconds since the
epoch, and its two `int64` byte counters. -/
structure PeerStats where
  publicKey : String
  lastHandshakeTime : Int
  receiveBytes : BitVec 64
  transmitBytes : BitVec 64
  deriving DecidableEq, Repr

/-- `time.Minute`, in nanoseconds. -/
def minute : Int := 60 * 1000000000

/-- `PeerConnectionStatus`, given what `wg.GetPeers` returned for the
interface and `time.Now()`: `false` when the fetch failed or no entry has
the key; otherwise, for the first entry with the key,
`LastHandshakeTime.After(now.Add(-3 * time.Minute))` and
`ReceiveBytes + TransmitBytes > 0`, the sum and the comparison in `int64`.
Modelled from the spec: a `time.Time` is its count of nanoseconds. -/
def peerConnectionStatus (ifacePeers : Except String (List PeerStats)) (now : Int)
    (peerPublicKey : String) : Bool :=
  match ifacePeers with
  | .error _ => false
  | .ok peers =>
    match peers.find? (·.publicKey == peerPublicKey) with
    | some peer => decide (now + -3 * minute < peer.lastHandshakeTime) &&
        (0 : BitVec 64).slt (peer.receiveBytes + peer.transmitBytes)
    | none => false

/-! ## The `int64` sum -/

theorem BitVec.toInt_bounds (x : BitVec 64) : -2 ^ 63 ≤ x.toInt ∧ x.toInt < 2 ^ 63 := by
  rw [BitVec.toInt_eq_toNat_bmod]
  exact ⟨Int.le_bmod (by decide), Int.bmod_lt (by decide)⟩

/-- An `int64` sum is above zero iff the integer sum `s` of the two counters
is in `(0, 2^63)`, or wraps from `(-2^64, -2^63)` into it. -/
theorem zero_slt_add (r t : BitVec 64) :
    (0 : BitVec 64).slt (r + t) = true ↔
      (0 < r.toInt + t.toInt ∧ r.toInt + t.toInt < 2 ^ 63) ∨
        (-2 ^ 64 < r.toInt + t.toInt ∧ r.toInt + t.toInt < -2 ^ 63) := by
  have hr := BitVec.toInt_bounds r
  have ht := BitVec.toInt_bounds t
  have h0 : (0 : BitVec 64).toInt = 0 := rfl
  simp only [BitVec.slt, BitVec.toInt_add, h0, decide_eq_true_eq, Int.bmod_def]
  split <;> omega

/-! ## The check -/

/-- **What `PeerConnectionStatus` decides.** For every peer list, key and
time, the peer is reported connected iff the list has an entry with the key
and the first such entry has its last handshake after `now` less three
minutes and its counters' integer sum `s` in `(0, 2^63)` or in
`(-2^64, -2^63)`: the `int64` sum, `s` modulo `2^64` read back signed, is
above zero. -/
theorem peerConnectionStatus_iff (peers : List PeerStats) (now : Int) (k : String) :
    peerConnectionStatus (.ok peers) now k = true ↔
      ∃ peer, peers.find? (·.publicKey == k) = some peer ∧
        now - 3 * minute < peer.lastHandshakeTime ∧
        ((0 < peer.receiveBytes.toInt + peer.transmitBytes.toInt ∧
            peer.receiveBytes.toInt + peer.transmitBytes.toInt < 2 ^ 63) ∨
          (-2 ^ 64 < peer.receiveBytes.toInt + peer.transmitBytes.toInt ∧
            peer.receiveBytes.toInt + peer.transmitBytes.toInt < -2 ^ 63)) := by
  simp only [peerConnectionStatus]
  cases peers.find? (·.publicKey == k) with
  | none => simp
  | some peer =>
    simp only [Bool.and_eq_true, decide_eq_true_eq, zero_slt_add, Option.some.injEq,
      exists_eq_left']
    constructor <;> rintro ⟨h, hs⟩ <;> exact ⟨by omega, hs⟩

/-- A peer whose counters are `2^62` bytes each, with a handshake just now. -/
def wrappedPeer : PeerStats := ⟨"k", 0, 2 ^ 62, 2 ^ 62⟩

/-- **A wrapped sum reads as no traffic.** The first entry for `k` shook
hands just now and its counters sum to `2^63 > 0` as integers, but their
`int64` sum is `-2^63`, and the peer is reported not connected. -/
theorem status_ignores_wrapped_sum :
    ¬ ∀ (peers : List PeerStats) (now : Int) (k : String),
      peerConnectionStatus (.ok peers) now k = true ↔
        ∃ peer, peers.find? (·.publicKey == k) = some peer ∧
          now - 3 * minute < peer.lastHandshakeTime ∧
          0 < peer.receiveBytes.toInt + peer.transmitBytes.toInt := by
  intro h
  have := (h [wrappedPeer] 0 "k").2 ⟨wrappedPeer, rfl, by decide, by decide⟩
  exact absurd this (by decide)

end Proxy

end Netclient
