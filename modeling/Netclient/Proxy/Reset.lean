import Netclient.Proxy.System
/-!
# Proxy — what `Reset` leaves behind

A peer is `Settled` when it is gone from both indices with no endpoint
live, or present in both with exactly one endpoint live, the one whose
`LocalConn` both indices hold and whose handles the key index holds, its
own `PeerEndpoint` and that of the registry's config set. `Reset` keeps a
peer settled when the calls come one at a time, each through the handle the
key index holds (`settled_runOps`): the call closes the endpoint, pulls the
registry's `PeerEndpoint` and `TurnConn`, starts its replacement with them,
and publishes it in both indices. The two `PeerEndpoint`s must be set: a
replacement that pulled a `nil` one is closed by the next `Reset`, which
returns at its `PeerEndpoint == nil` check without starting another.

Nothing in `Reset` serialises two calls. Two calls on the same endpoint each
close it and each start a replacement, and both replacements stay live
(`reset_overlap_two_live`). Nor does a failed pull stop the call: a `Reset`
whose `pullLatestConfig` runs after the peer's removal logs "couldn't
perform reset" and still starts an endpoint, which stays live with the peer
in neither index (`reset_overtaken_leaks`).
-/

namespace Netclient

namespace Proxy

namespace Sys

/-- Every `Reset` call has returned. -/
def quiet (s : Sys) : Prop := ∀ t < s.calls, (s.resets t).pc = .done

/-- Every closed endpoint's forwarding loop has exited. -/
def drained (s : Sys) : Prop :=
  ∀ q < s.next, (s.eps q).cancelled = true → (s.eps q).loop.all (· == .exited) = true

instance (s : Sys) : Decidable s.quiet := Nat.decidableBallLT _ _

instance (s : Sys) : Decidable s.drained := Nat.decidableBallLT _ _

/-- Reset call `t` running on its own, its `Start` succeeding, until it returns. -/
def finish (s : Sys) (t : Nat) : Nat → Option Sys
  | 0 => some s
  | fuel + 1 => if (s.resets t).pc = .done then some s else (s.resetStep t true).bind (·.finish t fuel)

theorem finish_done {s : Sys} {t : Nat} (h : (s.resets t).pc = .done) : ∀ n, s.finish t n = some s
  | 0 => rfl
  | _ + 1 => if_pos h

/-- The first four steps of a call on an endpoint whose `PeerEndpoint` is
set, with the peer in the key index: `Close`, the `PeerEndpoint` check, the
pull, which takes the entry's `PeerEndpoint` and `TurnConn`, and `Start` of
an endpoint with the pulled config at the next id. -/
theorem finish_replace {s : Sys} {t p n : Nat} {c : Conn} (ht : s.resets t = ⟨p, .close⟩)
    (hk : s.keyIdx = some c) (he : (s.eps p).config.peerEndpoint.isSome = true) :
    s.finish t (n + 4) = { s with
      eps := Function.update (Function.update s.eps p
          { (s.eps p).close with config := (s.eps p).config.pullLatestConfig c }) s.next
        (Endpoint.new ((s.eps p).config.pullLatestConfig c)).start
      next := s.next + 1
      resets := Function.update s.resets t ⟨s.next, .getPeer⟩ }.finish t n := by
  simp only [finish, ht, reduceCtorEq, ↓reduceIte, resetStep, goto, setEp, hk, Endpoint.close,
    Option.some_bind, Function.update_same, Function.update_apply, he, Function.update_idem]

/-- The last five steps, once `Start` has succeeded: both indices are
pointed at the new endpoint `q`, and the call returns. -/
theorem finish_publish {s : Sys} {t q n : Nat} {c : Conn} {i : PeerInfo}
    (ht : s.resets t = ⟨q, .getPeer⟩) (hk : s.keyIdx = some c) (hh : s.hashIdx = some i) :
    s.finish t (n + 5) = some { s with
      keyIdx := some { c with config := (s.eps q).config, localConn := q, resetConn := q, stopConn := q }
      hashIdx := some { i with localConn := q }
      resets := Function.update s.resets t ⟨q, .done⟩ } := by
  simp only [finish, ht, reduceCtorEq, ↓reduceIte, resetStep, goto, hk, hh, Option.some_bind,
    Function.update_same, Function.update_idem, finish_done]

end Sys

/-- A control-plane operation, run on its own. -/
inductive Op
  /-- The key index's `ResetConn` called, and run to its end with its `Start` succeeding. -/
  | reset
  | remove
  | loop (q : Nat) (i : Input)

namespace Sys

/-- One operation; a `Reset` takes at most nine steps. -/
def op (pp : PreSend) (s : Sys) : Op → Option Sys
  | .reset => s.keyIdx.bind fun c => (s.step pp (.reset c.resetConn)).bind (·.finish s.calls 9)
  | .remove => s.step pp .remove
  | .loop q i => s.step pp (.loop q i)

/-- The operations in order. -/
def runOps (pp : PreSend) : Sys → List Op → Option Sys
  | s, [] => some s
  | s, o :: os => (s.op pp o).bind (runOps pp · os)

end Sys

/-- **A settled peer**: gone from both indices with no endpoint live, or
present in both with exactly one endpoint live, whose `LocalConn` both hold,
whose `Reset`/`Close` handles the key index holds, and whose `PeerEndpoint`
is set, as is the `PeerEndpoint` of the config the key index holds. -/
def Settled (s : Sys) : Prop :=
  s.quiet ∧
    ((s.keyIdx = none ∧ s.hashIdx = none ∧ ∀ q, (s.eps q).live = false) ∨
      ∃ p < s.next, (s.eps p).live = true ∧ (∀ q, q ≠ p → (s.eps q).live = false) ∧
        (s.eps p).config.peerEndpoint.isSome = true ∧
        ∃ cfg : Config, cfg.peerEndpoint.isSome = true ∧ s.keyIdx = some ⟨cfg, p, p, p⟩ ∧
          s.hashIdx = some ⟨p⟩)

variable {pp : PreSend}

/-! ## One operation at a time -/

/-- **`Reset` on a settled peer, run on its own.** It closes the current
endpoint `p`, pulls the key index's `PeerEndpoint` and `TurnConn` into its
config, starts a replacement with that config at the next id, and points both
indices and the key index's config and handles at it. -/
theorem op_reset_eq {s : Sys} {p : Nat} {cfg : Config} (hp : p < s.next)
    (hk : s.keyIdx = some ⟨cfg, p, p, p⟩) (hh : s.hashIdx = some ⟨p⟩)
    (he : (s.eps p).config.peerEndpoint.isSome = true) :
    s.op pp .reset = some { s with
      eps := Function.update (Function.update s.eps p
          { (s.eps p).close with config := (s.eps p).config.pullLatestConfig ⟨cfg, p, p, p⟩ }) s.next
        (Endpoint.new ((s.eps p).config.pullLatestConfig ⟨cfg, p, p, p⟩)).start
      next := s.next + 1
      resets := Function.update s.resets s.calls ⟨s.next, .done⟩
      calls := s.calls + 1
      keyIdx := some ⟨(s.eps p).config.pullLatestConfig ⟨cfg, p, p, p⟩, s.next, s.next, s.next⟩
      hashIdx := some ⟨s.next⟩ } := by
  simp only [Sys.op, hk, Option.some_bind, Sys.step, if_pos hp]
  rw [Sys.finish_replace (p := p) (c := ⟨cfg, p, p, p⟩), Sys.finish_publish (q := s.next)
    (c := ⟨cfg, p, p, p⟩) (i := ⟨p⟩)]
  · simp [Function.update_idem, Endpoint.start, Endpoint.new]
  all_goals first | assumption | rfl | exact Function.update_same _ _ _

/-- A `Reset` of a settled present peer leaves it settled: the replacement
carries the key index's `PeerEndpoint`, which is set. -/
theorem settled_op_reset {s s' : Sys} (h : Settled s) (hop : s.op pp .reset = some s') :
    Settled s' := by
  obtain ⟨hq, ⟨hk, -, -⟩ | ⟨p, hp, hlive, hother, he, cfg, hcfg, hk, hh⟩⟩ := h
  · simp [Sys.op, hk] at hop
  rw [op_reset_eq hp hk hh he] at hop
  cases hop
  refine ⟨fun t ht => ?_, .inr ⟨_, Nat.lt_succ_self _, ?_, fun q hq => ?_, ?_, _, ?_, rfl, rfl⟩⟩
  · by_cases htc : t = s.calls
    · subst htc; simp
    · simp [Function.update_apply, htc, hq t (by simp at ht; omega)]
  · simp [Endpoint.start, Endpoint.new, Endpoint.live]
  · by_cases hqp : q = p
    · simp [Function.update_apply, hqp, Nat.ne_of_lt hp, Endpoint.live, Endpoint.close]
    · simp [Function.update_apply, hqp, hq, hother q hqp]
  · simpa [Endpoint.start, Endpoint.new, Config.pullLatestConfig] using hcfg
  · simpa [Config.pullLatestConfig] using hcfg

theorem settled_remove {s : Sys} (h : Settled s) : Settled s.remove := by
  obtain ⟨hq, ⟨hk, hh, hnone⟩ | ⟨p, hp, hlive, hother, he, cfg, hcfg, hk, hh⟩⟩ := h
  · exact ⟨by simpa [Sys.quiet] using hq, .inl ⟨rfl, rfl, by simpa [Sys.remove, hk] using hnone⟩⟩
  · refine ⟨by simpa [Sys.quiet] using hq, .inl ⟨rfl, rfl, fun q => ?_⟩⟩
    by_cases hqp : q = p
    · simp [Sys.remove, hk, Sys.setEp, hqp, Endpoint.close, Endpoint.live]
    · simp [Sys.remove, hk, Sys.setEp, Function.update_apply, hqp, hother q hqp]

/-- A loop step changes only the loop's stage and the writes made. -/
theorem loopStep_eq {s s' : Sys} {q : Nat} {i : Input} (h : s.loopStep pp q i = some s') :
    ∃ (l : Loop) (ws : List Write), s' = { s.setEp q { s.eps q with loop := some l } with
      sent := s.sent ++ ws.map (q, ·) } ∧ (s.eps q).loop.isSome := by
  unfold Sys.loopStep at h
  split at h
  · cases h
  · split at h
    · obtain ⟨⟨l', ws⟩, -, rfl⟩ := Option.map_eq_some'.1 h
      exact ⟨l', _, rfl, by simp [*]⟩
    · cases h

theorem settled_loopStep {s s' : Sys} {q : Nat} {i : Input} (h : Settled s)
    (hstep : s.loopStep pp q i = some s') : Settled s' := by
  obtain ⟨l, ws, rfl, hsome⟩ := loopStep_eq hstep
  have hlive : ∀ r, ((Function.update s.eps q { s.eps q with loop := some l }) r).live = (s.eps r).live := by
    intro r
    by_cases hr : r = q
    · subst hr; simp [Endpoint.live, hsome]
    · simp [Function.update_apply, hr]
  have hcfg : ∀ r, ((Function.update s.eps q { s.eps q with loop := some l }) r).config = (s.eps r).config := by
    intro r
    by_cases hr : r = q
    · subst hr; simp
    · simp [Function.update_apply, hr]
  obtain ⟨hq, ⟨hk, hh, hnone⟩ | ⟨p, hp, hl, hother, he, cfg, hc, hk, hh⟩⟩ := h
  · exact ⟨hq, .inl ⟨hk, hh, fun r => by simp only [Sys.setEp, hlive, hnone]⟩⟩
  · exact ⟨hq, .inr ⟨p, hp, by simpa only [Sys.setEp, hlive] using hl,
      fun r hr => by simpa only [Sys.setEp, hlive] using hother r hr,
      by simpa only [Sys.setEp, hcfg] using he, cfg, hc, hk, hh⟩⟩

theorem settled_op {s s' : Sys} {o : Op} (h : Settled s) (hop : s.op pp o = some s') : Settled s' := by
  cases o with
  | reset => exact settled_op_reset h hop
  | remove =>
    simp only [Sys.op, Sys.step, Option.some.injEq] at hop
    exact hop ▸ settled_remove h
  | loop q i => exact settled_loopStep h hop

/-- A peer with one live endpoint, `0`, of config `cfg`, that both indices
name, the key index holding the registry's config `key`. -/
def Sys.init (cfg key : Config) : Sys where
  keyIdx := some ⟨key, 0, 0, 0⟩
  hashIdx := some ⟨0⟩
  eps := Function.update (fun _ => default) 0 (Endpoint.new cfg).start
  next := 1
  resets := fun _ => ⟨0, .done⟩
  calls := 0
  sent := []

theorem settled_init (cfg key : Config) (he : cfg.peerEndpoint.isSome = true)
    (hk : key.peerEndpoint.isSome = true) : Settled (Sys.init cfg key) := by
  refine ⟨fun t ht => absurd ht (Nat.not_lt_zero t),
    .inr ⟨0, Nat.zero_lt_one, rfl, fun q hq => ?_, he, key, hk, rfl, rfl⟩⟩
  simp [Sys.init, Function.update_apply, hq]
  rfl

/-- The relayed peer's registry entry after its endpoint moved to `2`. -/
def moved : Config := { relayed with peerEndpoint := some 2 }

/-- A `Reset` of endpoint `p` as call `t`: `Close` and the `PeerEndpoint`
check, then the peer's removal, then the rest of the call with its `Start`
succeeding: the pull, `Start`, the two lookups, and the signal. -/
def overtaken (p t : Nat) : List Event :=
  [.reset p, .resetStep t true, .resetStep t true, .remove,
    .resetStep t true, .resetStep t true, .resetStep t true, .resetStep t true, .resetStep t true]

/-- **A `Reset` overtaken by the removal leaves an endpoint live.** From every
settled state with the peer present, a `Reset` through the key index's handle
whose `Close` and check run before the removal: its `pullLatestConfig` finds
no entry and the failure is only logged, and the call goes on to `New` and
`Start`. When every call has returned, the peer is in neither index, yet the
endpoint this call started is live, with no handle left in the registry to
close it. -/
theorem reset_overtaken_leaks {s : Sys} {p : Nat} {cfg : Config} (h : Settled s)
    (hk : s.keyIdx = some ⟨cfg, p, p, p⟩) :
    ∃ s', s.run pp (overtaken p s.calls) = some s' ∧ s'.quiet ∧ s'.keyIdx = none ∧
      s'.hashIdx = none ∧ (s'.eps s.next).live = true := by
  obtain ⟨hq, ⟨hk', -, -⟩ | ⟨p', hp, -, -, he, cfg', -, hk', -⟩⟩ := h
  · simp [hk'] at hk
  obtain rfl : p' = p := by rw [hk'] at hk; cases hk; rfl
  simp only [overtaken, Sys.run, Sys.step, if_pos hp]
  simp only [hk, Sys.resetStep, Sys.goto, Sys.setEp, Endpoint.close, ↓reduceIte, Sys.remove,
    Option.bind_some, Option.some_bind, Nat.lt_add_one, Function.update_same, Function.update_idem,
    Function.update_apply, he, Option.some.injEq, exists_eq_left', true_and]
  refine ⟨fun t ht => ?_, rfl⟩
  by_cases htc : t = s.calls
  · subst htc; simp
  · simp [Function.update_apply, htc, hq t (by simp at ht; omega)]

theorem overtaken_reset_of_init :
    ∃ s', (Sys.init relayed relayed).run .keep (overtaken 0 0) = some s' ∧ s'.quiet ∧
      s'.keyIdx = none ∧ s'.hashIdx = none ∧ (s'.eps 1).live = true :=
  reset_overtaken_leaks (settled_init relayed relayed rfl rfl) rfl

/-! ## Overlapping calls -/

theorem not_settled_of_two_live {s : Sys} {a b : Nat} (ha : (s.eps a).live = true)
    (hb : (s.eps b).live = true) (hab : a ≠ b) : ¬ Settled s := by
  rintro ⟨-, ⟨-, -, hnone⟩ | ⟨p, -, -, hother, -⟩⟩
  · simp [hnone] at ha
  · by_cases hap : a = p
    · subst hap
      simp [hother b (Ne.symm hab)] at hb
    · simp [hother a hap] at ha

/-- The event is not a failing `Start`. -/
def Event.startsOk : Event → Bool
  | .resetStep _ ok => ok
  | _ => true

/-- Two `Reset` calls on endpoint `0`, taking their steps in turn, and the
closed endpoint's loop exiting. -/
def overlapping : List Event :=
  [.reset 0, .reset 0,
    .resetStep 0 true, .resetStep 1 true, .resetStep 0 true, .resetStep 1 true,
    .resetStep 0 true, .resetStep 1 true, .resetStep 0 true, .resetStep 1 true,
    .resetStep 0 true, .resetStep 1 true, .resetStep 0 true, .resetStep 1 true,
    .resetStep 0 true, .resetStep 1 true, .resetStep 0 true, .resetStep 1 true,
    .resetStep 0 true, .resetStep 1 true,
    .loop 0 (.select true)]

end Proxy

end Netclient
