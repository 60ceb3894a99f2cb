import Netclient.Router.Bookkeeping
/-!
# Router — the bookkeeping invariant

The tables are how `RemoveRoutingRules`, `RefreshEgressRangesOnIngressGw`
and `CleanRoutingRules` find the kernel rules to delete, so the manager
relies on the tables recording exactly the rules it put into the kernel
(`Balanced`). In general they do not:
`InsertIngressRoutingRules` run twice for one ext client overwrites the
entry and leaves two copies of its rules in the kernel
(`repeated_insert_drifts`).

Each body keeps the balance on its own table (`Tracks`) when its writes
land on keys that record nothing, the `Flush`es whose rules are recorded
regardless take, and `DeleteRoutingRule` deletes nothing (`Call.tidy`).
Then every run of tidy calls keeps the kernel its first ruleset plus exactly
the recorded rules. A `RemoveRoutingRules` of a recorded peer then
succeeds, drops the entry, and keeps the balance (`tidy_run_balanced`).
-/

namespace Netclient

namespace Router

variable (E : Env)

theorem tracks_of_tableKeys_eq {t t' : RuleTable} (w : World)
    (h : tableKeys E t' = tableKeys E t) : Tracks E t w t' w := by
  unfold Tracks
  rw [h]

/-- `ruleTable[k].rulesMap[k'] = old ++ rs`, after the rules `rs` went into
the kernel. -/
theorem tracks_putRules_append {t : RuleTable} {k k' : String} {cfg : RulesCfg}
    (h : t.get? k = some cfg) {old : List RuleInfo} (hold : cfg.rulesMap.get? k' = some old)
    {w w' : World} {rs : List RuleInfo} (ha : Adds E w rs w') :
    Tracks E t w (t.putRules k k' (old ++ rs)) w' := by
  have hp := tableKeys_putRules E h k' (old ++ rs)
  rw [hold, Option.map_some', Option.getD_some, keysOf_append] at hp
  unfold Tracks
  apply add_right_cancel (b := keysOf E old)
  rw [add_assoc (kernelKeys w.rules), hp, ha]
  abel

/-- A fresh entry over one that recorded nothing records nothing either. -/
theorem tableKeys_insert_fresh {t : RuleTable} {k : String}
    (h : ((t.get? k).map (cfgKeys E)).getD 0 = 0) (isIpv4 : Bool) :
    tableKeys E (t.insert k ⟨isIpv4, GoMap.empty⟩) = tableKeys E t := by
  have := tableKeys_insert E t k ⟨isIpv4, GoMap.empty⟩
  rwa [h, add_zero, show cfgKeys E ⟨isIpv4, GoMap.empty⟩ = 0 from rfl, add_zero] at this

/-! ## The bodies that put rules in -/

theorem insertEgressBody_tracks (ei : EgressInfo) {t t' : RuleTable} {w w' : World} {o : Outcome}
    (h : insertEgressBody E ei t w = (o, t', w'))
    (hfresh : ((t.get? ei.egressID).map (cfgKeys E)).getD 0 = 0)
    (hpeers : ((ei.gwPeers.filter (·.allow)).map (·.peerKey)).Nodup)
    (hown : ∀ p ∈ ei.gwPeers, p.allow = true → p.peerKey ≠ ei.egressID)
    (hnat : natFresh E (E.isAddrIpv4 (E.ipNetString ei.egressGwAddr)) ei ei.ranges
      (kernelKeys w.rules) = true) :
    Tracks E t w t' w' := by
  simp only [insertEgressBody] at h
  rcases hg : gwRoutes E ei (E.isAddrIpv4 (E.ipNetString ei.egressGwAddr)) ei.ranges w with
    ⟨w₁, routes⟩
  rcases hp : gwPeerRoutes E ei (E.isAddrIpv4 (E.ipNetString ei.egressGwAddr)) ei.gwPeers
    (t.insert ei.egressID ⟨E.isAddrIpv4 (E.ipNetString ei.egressGwAddr), GoMap.empty⟩) w₁ with
    ⟨t₂, w₂⟩
  simp only [hg, hp, Prod.mk.injEq] at h
  obtain ⟨-, rfl, rfl⟩ := h
  have ha := gwRoutes_adds E _ ei hg le_rfl hnat
  have hc₀ : (t.insert ei.egressID ⟨E.isAddrIpv4 (E.ipNetString ei.egressGwAddr),
      GoMap.empty⟩).get? ei.egressID = some ⟨E.isAddrIpv4 (E.ipNetString ei.egressGwAddr),
      GoMap.empty⟩ := by simp
  obtain ⟨ht, cfg', hc', hk⟩ := gwPeerRoutes_tracks E _ ei hp hc₀ (fun _ _ _ => rfl) hpeers
  have hT₃ := tableKeys_putRules E hc' ei.egressID routes
  rw [hk ei.egressID hown, GoMap.get?_empty, Option.map_none', Option.getD_none, add_zero] at hT₃
  unfold Tracks at *
  calc kernelKeys w₂.rules + tableKeys E t
      = kernelKeys w₂.rules + tableKeys E (t.insert ei.egressID
          ⟨E.isAddrIpv4 (E.ipNetString ei.egressGwAddr), GoMap.empty⟩) := by
        rw [tableKeys_insert_fresh E hfresh]
    _ = keysOf E routes + kernelKeys w.rules + tableKeys E t₂ := by rw [ht, ha]
    _ = _ := by
      rw [hT₃]
      abel

theorem addEgressBody_tracks (ei : EgressInfo) (peer : PeerRouteInfo) {t t' : RuleTable}
    {w w' : World} {o : Outcome} (h : addEgressBody E ei peer t w = (o, t', w'))
    (hold : (((t.get? ei.egressID).bind (·.rulesMap.get? peer.peerKey)).map (keysOf E)).getD 0 =
      0) :
    Tracks E t w t' w' := by
  unfold addEgressBody at h
  rcases hc : t.get? ei.egressID with _ | cfg
  · simp only [RuleTable.setRules, hc, Option.isSome_none, Bool.false_eq_true, if_false,
      Prod.mk.injEq] at h
    obtain ⟨-, rfl, rfl⟩ := h
    exact Tracks.refl E t w
  · simp only [RuleTable.setRules, hc, Option.isSome_some, if_true] at h
    rcases hr : peerRoutes E (E.isAddrIpv4 (E.ipNetString ei.egressGwAddr)) peer ei.ranges w with
      ⟨w₁, rs⟩
    simp only [hr, Prod.mk.injEq] at h
    obtain ⟨-, rfl, rfl⟩ := h
    rw [hc, Option.some_bind] at hold
    have h₁ : tableKeys E (t.putRules ei.egressID peer.peerKey []) = tableKeys E t := by
      have := tableKeys_putRules E hc peer.peerKey []
      rwa [hold, add_zero, keysOf_nil, add_zero] at this
    have hc₁ : (t.putRules ei.egressID peer.peerKey []).get? ei.egressID =
        some { cfg with rulesMap := cfg.rulesMap.insert peer.peerKey [] } := by
      simp [hc]
    exact (tracks_of_tableKeys_eq E w h₁).trans
      (tracks_putRules E hc₁ (by simp) (peerRoutes_adds E _ peer hr))

theorem addIngressBody_tracks (key : String) (addr : IpText) (peer : PeerRouteInfo)
    {t t' : RuleTable} {w w' : World} {o : Outcome}
    (h : addIngressBody E key addr peer t w = (o, t', w')) (hok : o ≠ .panic)
    (hins : w.insertOk)
    (hold : (((t.get? key).bind (·.rulesMap.get? peer.peerKey)).map (keysOf E)).getD 0 = 0) :
    Tracks E t w t' w' := by
  unfold addIngressBody at h
  rcases hpre : E.prefixIs6 (E.ipNetString peer.peerAddr) with _ | is6 <;> simp only [hpre] at h
  · simp only [Prod.mk.injEq] at h
    obtain ⟨-, rfl, rfl⟩ := h
    exact Tracks.refl E t w
  · rcases hi : w.insertRule (ingressPeerRule E (!is6) addr peer.peerAddr).nfRule with ⟨w₁, ok⟩
    have ha := adds_insertRule E (ingressPeerRule_coherent ..) hi
    have hok₁ := World.insertRule_ok hins (ingressPeerRule E (!is6) addr peer.peerAddr).nfRule
    rw [hi] at hok₁
    subst hok₁
    rcases hc : t.get? key with _ | cfg
    · simp [RuleTable.setRules, hc, hi] at h
      exact absurd h.1.symm hok
    · simp only [RuleTable.setRules, hc, hi, Option.isSome_some, if_true, Prod.mk.injEq] at h
      obtain ⟨-, rfl, rfl⟩ := h
      rw [hc, Option.some_bind] at hold
      exact tracks_putRules E hc hold (by simpa using ha)

theorem insertIngressBody_tracks (ext : ExtClientInfo) (ranges : List CidrText)
    {t t' : RuleTable} {w w' : World} {o : Outcome}
    (h : insertIngressBody E ext ranges t w = (o, t', w'))
    (hfresh : ((t.get? ext.extPeerKey).map (cfgKeys E)).getD 0 = 0)
    (hins : ∀ b ∈ w.ins.take 2, b = true)
    (hpeers : ((ext.peers.filter fun p => p.allow && p.peerKey != ext.extPeerKey).map
      (·.peerKey)).Nodup) :
    Tracks E t w t' w' := by
  unfold insertIngressBody at h
  rcases hpre : E.prefixIs6 (E.ipNetString ext.extPeerAddr) with _ | is6 <;> simp only [hpre] at h
  · simp only [Prod.mk.injEq] at h
    obtain ⟨-, rfl, rfl⟩ := h
    exact Tracks.refl E t w
  set fwd := extFwdJumpRule E (!is6) ext.extPeerAddr ext.ingGwAddr
  set net := extNetworkRule E (!is6) ext.network ext.extPeerAddr
  set k := ext.extPeerKey
  -- the jump into the ext client's chain and its network rule go in first
  rcases h₁ : w.insertRule fwd.nfRule with ⟨w₁, ok₁⟩
  have hok₁ := World.insertRule_ok (World.insertOk_of_take (by decide) hins) fwd.nfRule
  have hins₁ := World.take_insertRule hins fwd.nfRule
  rw [h₁] at hok₁ hins₁
  subst hok₁
  set w₁' : World := { w₁ with jumpRules := w₁.jumpRules ++ [fwd] }
  rcases h₂ : w₁'.insertRule net.nfRule with ⟨w₂, ok₂⟩
  have hok₂ := World.insertRule_ok (w := w₁') (World.insertOk_of_take Nat.one_pos hins₁) net.nfRule
  rw [h₂] at hok₂
  subst hok₂
  have ha₁ : Adds E w [fwd] w₁ := by simpa using adds_insertRule E (extFwdJumpRule_coherent ..) h₁
  have ha : Adds E w [fwd, net] w₂ :=
    ha₁.trans (by simpa using adds_insertRule E (extNetworkRule_coherent ..) h₂)
  -- a fresh entry holding the two
  set t₁ : RuleTable := t.insert k ⟨!is6, GoMap.empty⟩
  have hc₁ : t₁.get? k = some ⟨!is6, GoMap.empty⟩ := by simp [t₁]
  have ht₂ : Tracks E t w (t₁.putRules k k [fwd, net]) w₂ :=
    (tracks_of_tableKeys_eq E w (tableKeys_insert_fresh E hfresh (!is6))).trans
    (tracks_putRules E hc₁ (by simp) ha)
  have hc₂ : (t₁.putRules k k [fwd, net]).get? k =
      some ⟨!is6, GoMap.empty.insert k [fwd, net]⟩ := by simp [hc₁]
  -- the peers, the egress ranges and the masquerade rules
  rcases hp : extPeerRoutes E (!is6) ext ext.peers (t₁.putRules k k [fwd, net]) w₂ with ⟨t₃, w₃⟩
  obtain ⟨ht₃, cfg₃, hc₃, hk₃⟩ := extPeerRoutes_tracks E _ ext hp hc₂
    (fun p _ hp => by simp_all) hpeers
  simp only [GoMap.get?_insert, if_true] at hk₃
  rcases hr : extRangeRoutes E (!is6) ext.extPeerAddr ranges w₃ with ⟨w₄, rs⟩
  have ht₄ := tracks_putRules_append E hc₃ hk₃ (extRangeRoutes_adds E _ _ hr)
  simp only [h₁, h₂, hp, hr] at h
  cases hm : ext.masquerade <;> simp only [hm, Bool.not_false, Bool.not_true, if_true,
    Bool.false_eq_true, if_false] at h
  · simp only [Prod.mk.injEq] at h
    obtain ⟨-, rfl, rfl⟩ := h
    exact ht₂.trans (ht₃.trans ht₄)
  · rcases hq : extMasqRoutes E (!is6) ext.extPeerAddr w₄ with ⟨w₅, mq⟩
    simp only [hq, Prod.mk.injEq] at h
    obtain ⟨-, rfl, rfl⟩ := h
    have hc₄ : (t₃.putRules k k ([fwd, net] ++ rs)).get? k =
        some { cfg₃ with rulesMap := cfg₃.rulesMap.insert k ([fwd, net] ++ rs) } := by simp [hc₃]
    exact ht₂.trans (ht₃.trans (ht₄.trans
      (tracks_putRules_append E hc₄ (by simp) (extMasqRoutes_adds E _ _ hq))))

/-! ## The bodies that take rules out -/

theorem Holds.le {X : Multiset Triple} {t : RuleTable} {w : World} (h : Holds E X t w) :
    tableKeys E t ≤ kernelKeys w.rules :=
  h ▸ Multiset.le_add_left _ _

theorem refreshRanges_tracks (upd : IngressInfo) (curr : List CidrText) {X : Multiset Triple}
    {t t' : RuleTable} {w w' : World} {o : Outcome}
    (h : refreshRanges E upd curr t w = (o, t', w')) (hh : Holds E X t w) (hdel : w.deletesOk) :
    Tracks E t w t' w' := by
  unfold refreshRanges at h
  split_ifs at h
  · obtain ⟨t₁, w₁, hd, hh₁⟩ := dropRanges_holds E t.nodup (fun e he => t.get?_of_mem he) hh hdel
    simp only [hd, Prod.mk.injEq] at h
    obtain ⟨-, rfl, rfl⟩ := h
    exact tracks_of_holds hh hh₁
  · obtain ⟨t₁, w₁, hd, hh₁⟩ := dropRanges_holds E t.nodup (fun e he => t.get?_of_mem he) hh hdel
    rcases ha : addRanges E upd.egressRanges upd.extPeers.entries t₁ w₁ with ⟨t₂, w₂⟩
    simp only [hd, ha, Prod.mk.injEq] at h
    obtain ⟨-, rfl, rfl⟩ := h
    exact (tracks_of_holds hh hh₁).trans (addRanges_tracks E _ ha)
  · simp only [Prod.mk.injEq] at h
    obtain ⟨-, rfl, rfl⟩ := h
    exact Tracks.refl E t w

/-- The deferred update of `currEgressRangesMap` leaves the kernel as it is. -/
theorem refreshBody_tracks (server : String) (upd : IngressInfo) {X : Multiset Triple}
    {t t' : RuleTable} {w w' : World} {o : Outcome}
    (h : refreshBody E server upd t w = (o, t', w')) (hh : Holds E X t w) (hdel : w.deletesOk) :
    Tracks E t w t' w' := by
  unfold refreshBody at h
  rcases hr : refreshRanges E upd ((w.currEgressRanges.get? server).getD []) t w with ⟨o₁, t₁, w₁⟩
  simp only [hr, Prod.mk.injEq] at h
  obtain ⟨-, rfl, rfl⟩ := h
  have ht := refreshRanges_tracks E upd _ hr hh hdel
  exact ht

/-- A recorded peer's rules are all in the kernel, so `RemoveRoutingRules`
deletes every one of them and drops the entry. -/
theorem removeBody_tracks (peerKey : String) {t t' : RuleTable} {w w' : World} {o : Outcome}
    (h : removeBody E peerKey t w = (o, t', w')) (hle : tableKeys E t ≤ kernelKeys w.rules)
    (hdel : w.deletesOk) :
    Tracks E t w t' w' ∧ ∀ cfg, t.get? peerKey = some cfg →
      o = .ok ∧ t' = t.erase peerKey ∧
        kernelKeys w'.rules + cfgKeys E cfg = kernelKeys w.rules := by
  unfold removeBody at h
  rcases hc : t.get? peerKey with _ | cfg <;> simp only [hc] at h
  · simp only [Prod.mk.injEq] at h
    obtain ⟨-, rfl, rfl⟩ := h
    exact ⟨Tracks.refl E t w, by simp⟩
  have hle' : keysOf E (cfg.rulesMap.entries.flatMap (·.2)) ≤ kernelKeys w.rules :=
    (cfgKeys_eq E cfg ▸ cfgKeys_le_tableKeys E hc).trans hle
  obtain ⟨hnone, hk⟩ := deleteRules_of_le E peerKey hle' hdel
  rcases hd : deleteRules E peerKey (cfg.rulesMap.entries.flatMap (·.2)) w with ⟨w₁, e⟩
  rw [hd] at hnone hk
  obtain rfl : e = none := hnone
  simp only [hd, Prod.mk.injEq] at h
  obtain ⟨rfl, rfl, rfl⟩ := h
  rw [← cfgKeys_eq] at hk
  have he := tableKeys_erase E t peerKey
  rw [hc, Option.map_some', Option.getD_some] at he
  refine ⟨?_, fun cfg' hc' => ?_⟩
  · unfold Tracks
    rw [← hk, ← he]
    abel
  · obtain rfl : cfg = cfg' := Option.some_injective _ hc'
    exact ⟨rfl, rfl, hk⟩

/-- `DeleteRoutingRule` of a list that records nothing changes nothing. -/
theorem deleteBody_of_nil (src dst : String) {t t' : RuleTable} {w w' : World} {o : Outcome}
    (h : deleteBody E src dst t w = (o, t', w'))
    (hnil : (((t.get? src).bind (·.rulesMap.get? dst)).map (keysOf E)).getD 0 = 0) :
    t' = t ∧ w' = w := by
  unfold deleteBody at h
  rcases hc : t.get? src with _ | cfg <;> simp only [hc] at h
  · simp only [Prod.mk.injEq] at h
    exact ⟨h.2.1.symm, h.2.2.symm⟩
  rcases hr : cfg.rulesMap.get? dst with _ | rs <;> simp only [hr] at h
  · simp only [Prod.mk.injEq] at h
    exact ⟨h.2.1.symm, h.2.2.symm⟩
  rw [hc, Option.some_bind, hr, Option.map_some', Option.getD_some, keysOf_eq_zero] at hnil
  subst hnil
  simp only [deleteRules, Prod.mk.injEq] at h
  exact ⟨h.2.1.symm, h.2.2.symm⟩

/-! ## The manager -/

@[simp] theorem Mgr.deleteRuleTable_rules (m : Mgr) (server name : String) :
    (m.deleteRuleTable E server name).rules = m.rules := by
  unfold Mgr.deleteRuleTable
  split_ifs <;> rfl

theorem Mgr.balanced_init (rules₀ : List NfRule) : Balanced E rules₀ (Mgr.init E rules₀) := by
  simp [Balanced, Mgr.recordedKeys, Mgr.init]

/-- A table read from a balanced manager holds over the other tables' records. -/
theorem Balanced.holds {rules₀ : List NfRule} {m : Mgr} (hb : Balanced E rules₀ m) (rep : Replies)
    (server name : String) :
    Holds E (kernelKeys rules₀ + (m.deleteRuleTable E server name).recordedKeys E)
      (m.fetchRuleTable E server name) (m.world rep) := by
  unfold Holds
  rw [Mgr.world_rules, hb, add_assoc, Mgr.recordedKeys_deleteRuleTable]

theorem balanced_locked_of_eq {rules₀ : List NfRule} {m : Mgr} (hb : Balanced E rules₀ m)
    {rep : Replies} {server name : String} {body : RuleTable → World → Outcome × RuleTable × World}
    {o : Outcome} {t' : RuleTable} {w' : World}
    (h : body (m.fetchRuleTable E server name) (m.world rep) = (o, t', w'))
    (ht : Tracks E (m.fetchRuleTable E server name) (m.world rep) t' w')
    (hname : name = E.ingressTable ∨ name = E.egressTable ∨ t' = m.fetchRuleTable E server name) :
    Balanced E rules₀ (m.locked E rep server name body).2 :=
  balanced_locked E hb rep server name body (by rw [h]; exact ht) (by rw [h]; exact hname)

/-- A body that leaves the empty table as it is saves nothing under a name
other than the two tables'. -/
theorem saves_fetched {body : RuleTable → World → Outcome × RuleTable × World}
    (hkeep : ∀ w o t' w', body GoMap.empty w = (o, t', w') → t' = GoMap.empty) {m : Mgr}
    {rep : Replies} {server name : String} {o : Outcome} {t' : RuleTable} {w' : World}
    (h : body (m.fetchRuleTable E server name) (m.world rep) = (o, t', w')) :
    name = E.ingressTable ∨ name = E.egressTable ∨ t' = m.fetchRuleTable E server name := by
  by_cases hi : name = E.ingressTable
  · exact Or.inl hi
  by_cases he : name = E.egressTable
  · exact Or.inr (Or.inl he)
  have hf : m.fetchRuleTable E server name = GoMap.empty := by simp [Mgr.fetchRuleTable, hi, he]
  rw [hf] at h ⊢
  exact Or.inr (Or.inr (hkeep _ _ _ _ h))

/-- `CleanRoutingRules` deletes the fetched table's rules and the table. -/
theorem balanced_cleanRoutingRules {rules₀ : List NfRule} {m : Mgr} (hb : Balanced E rules₀ m)
    (rep : Replies) (server name : String) (hdel : (m.world rep).deletesOk) :
    Balanced E rules₀ (m.cleanRoutingRules E rep server name) := by
  have hle : keysOf E (m.fetchRuleTable E server name).allRules ≤ kernelKeys (m.world rep).rules :=
    tableKeys_eq E _ ▸ (hb.holds E rep server name).le E
  have hk := cleanRules_of_le E hle hdel
  have hr := (m.withWorld (cleanRules E (m.fetchRuleTable E server name).allRules
    (m.world rep))).recordedKeys_deleteRuleTable E server name
  rw [← tableKeys_eq] at hk
  simp only [Mgr.recordedKeys_withWorld, Mgr.fetchRuleTable_withWorld] at hr
  unfold Balanced
  apply add_right_cancel (b := tableKeys E (m.fetchRuleTable E server name))
  simp only [Mgr.cleanRoutingRules, cleanBody, Mgr.deleteRuleTable_rules, Mgr.withWorld_rules]
  rw [hk, Mgr.world_rules, hb, add_assoc, hr]

/-- The calls the tables can account for: each write lands on keys that
record nothing yet, the `Flush`es whose rules are recorded regardless
succeed, the NAT rules of a gateway are not in the kernel already, and a
`DeleteRoutingRule` deletes nothing. -/
def Call.tidy (m : Mgr) (rep : Replies) : Call → Bool
  | .insertEgress server ei =>
    let t := m.fetchRuleTable E server E.egressTable
    ((t.get? ei.egressID).map (cfgKeys E)).getD 0 == 0 &&
      decide ((ei.gwPeers.filter (·.allow)).map (·.peerKey)).Nodup &&
      ei.gwPeers.all (fun p => !p.allow || p.peerKey != ei.egressID) &&
      natFresh E (E.isAddrIpv4 (E.ipNetString ei.egressGwAddr)) ei ei.ranges (kernelKeys m.rules)
  | .addEgress server ei peer =>
    let t := m.fetchRuleTable E server E.egressTable
    (((t.get? ei.egressID).bind (·.rulesMap.get? peer.peerKey)).map (keysOf E)).getD 0 == 0
  | .insertIngress server ext _ =>
    let t := m.fetchRuleTable E server E.ingressTable
    ((t.get? ext.extPeerKey).map (cfgKeys E)).getD 0 == 0 && (rep.ins.take 2).all id &&
      decide ((ext.peers.filter fun p => p.allow && p.peerKey != ext.extPeerKey).map
        (·.peerKey)).Nodup
  | .addIngress server key _ peer =>
    let t := m.fetchRuleTable E server E.ingressTable
    (rep.ins.take 1).all id &&
      (((t.get? key).bind (·.rulesMap.get? peer.peerKey)).map (keysOf E)).getD 0 == 0
  | .delete server name src dst =>
    let t := m.fetchRuleTable E server name
    (((t.get? src).bind (·.rulesMap.get? dst)).map (keysOf E)).getD 0 == 0
  | .refresh .. | .remove .. | .clean .. => true

/-- Every call of the run is tidy where it runs, and its `deleteRule`s'
`Flush`es succeed. -/
def tidyRun : Mgr → List (Call × Replies) → Bool
  | _, [] => true
  | m, (c, rep) :: cs => rep.del.all id && c.tidy E m rep && tidyRun (m.call E rep c).2 cs

theorem balanced_call {rules₀ : List NfRule} {m : Mgr} (hb : Balanced E rules₀ m) (rep : Replies)
    (c : Call) (hdel : rep.del.all id = true) (htidy : c.tidy E m rep = true)
    (hok : (m.call E rep c).1 ≠ .panic) : Balanced E rules₀ (m.call E rep c).2 := by
  have hdel' : (m.world rep).deletesOk := by simpa [World.deletesOk, Mgr.world] using hdel
  cases c with
  | insertEgress server ei =>
    simp only [Call.tidy, Bool.and_eq_true, beq_iff_eq, decide_eq_true_eq, List.all_eq_true,
      Bool.or_eq_true, Bool.not_eq_true', bne_iff_ne] at htidy
    obtain ⟨⟨⟨hfresh, hpeers⟩, hown⟩, hnat⟩ := htidy
    rcases h : insertEgressBody E ei (m.fetchRuleTable E server E.egressTable) (m.world rep) with
      ⟨o, t', w'⟩
    exact balanced_locked_of_eq E hb h (insertEgressBody_tracks E ei h hfresh hpeers
      (fun p hp ha => by simpa [ha] using hown p hp) hnat) (Or.inr (Or.inl rfl))
  | addEgress server ei peer =>
    simp only [Call.tidy, beq_iff_eq] at htidy
    simp only [Mgr.call, Mgr.addEgressRoutingRule]
    cases peer.allow
    · exact hb
    rcases h : addEgressBody E ei peer (m.fetchRuleTable E server E.egressTable) (m.world rep) with
      ⟨o, t', w'⟩
    rw [Bool.not_true, if_neg Bool.false_ne_true]
    exact balanced_locked_of_eq E hb h (addEgressBody_tracks E ei peer h htidy)
      (Or.inr (Or.inl rfl))
  | insertIngress server ext rs =>
    simp only [Call.tidy, Bool.and_eq_true, beq_iff_eq, decide_eq_true_eq, List.all_eq_true,
      id_eq] at htidy
    obtain ⟨⟨hfresh, hins⟩, hpeers⟩ := htidy
    rcases h : insertIngressBody E ext rs (m.fetchRuleTable E server E.ingressTable) (m.world rep)
      with ⟨o, t', w'⟩
    exact balanced_locked_of_eq E hb h (insertIngressBody_tracks E ext rs h hfresh hins hpeers)
      (Or.inl rfl)
  | addIngress server key addr peer =>
    simp only [Call.tidy, Bool.and_eq_true, beq_iff_eq, List.all_eq_true, id_eq] at htidy
    rcases h : addIngressBody E key addr peer (m.fetchRuleTable E server E.ingressTable)
      (m.world rep) with ⟨o, t', w'⟩
    have ho : o ≠ .panic := by
      simpa [Mgr.call, Mgr.addIngressRoutingRule, Mgr.locked, h] using hok
    exact balanced_locked_of_eq E hb h (addIngressBody_tracks E key addr peer h ho
      (World.insertOk_of_take Nat.one_pos htidy.1) htidy.2) (Or.inl rfl)
  | refresh server upd =>
    rcases h : refreshBody E server upd (m.fetchRuleTable E server E.ingressTable) (m.world rep)
      with ⟨o, t', w'⟩
    exact balanced_locked_of_eq E hb h
      (refreshBody_tracks E server upd h (hb.holds E rep server _) hdel') (Or.inl rfl)
  | remove server name key =>
    rcases h : removeBody E key (m.fetchRuleTable E server name) (m.world rep) with ⟨o, t', w'⟩
    exact balanced_locked_of_eq E hb h
      (removeBody_tracks E key h ((hb.holds E rep server name).le E) hdel').1
      (saves_fetched E (fun w o t' w' h => by simp [removeBody] at h; exact h.2.1.symm) h)
  | delete server name src dst =>
    simp only [Call.tidy, beq_iff_eq] at htidy
    rcases h : deleteBody E src dst (m.fetchRuleTable E server name) (m.world rep) with
      ⟨o, t', w'⟩
    obtain ⟨rfl, rfl⟩ := deleteBody_of_nil E src dst h htidy
    exact balanced_locked_of_eq E hb h (Tracks.refl E _ _) (Or.inr (Or.inr rfl))
  | clean server name => exact balanced_cleanRoutingRules E hb rep server name hdel'

theorem balanced_run {rules₀ : List NfRule} : ∀ {m m' : Mgr} {calls : List (Call × Replies)},
    Balanced E rules₀ m → tidyRun E m calls = true → m.run E calls = some m' → Balanced E rules₀ m'
  | m, m', [], hb, _, h => by
    simp only [Mgr.run, Option.some.injEq] at h
    exact h ▸ hb
  | m, m', (c, rep) :: cs, hb, ht, h => by
    simp only [tidyRun, Bool.and_eq_true] at ht
    obtain ⟨⟨hdel, hc⟩, hcs⟩ := ht
    unfold Mgr.run at h
    have hb₁ := balanced_call E hb rep c hdel hc
    rcases hcall : m.call E rep c with ⟨o, m₁⟩
    rw [hcall] at h hcs hb₁
    cases o with
    | panic => exact absurd h nofun
    | ok => exact balanced_run (hb₁ nofun) hcs h
    | error e => exact balanced_run (hb₁ nofun) hcs h

/-- Only the two tables' names fetch a table with entries. -/
theorem Mgr.known_of_get? {m : Mgr} {server name key : String} {cfg : RulesCfg}
    (h : (m.fetchRuleTable E server name).get? key = some cfg) :
    name = E.ingressTable ∨ name = E.egressTable := by
  by_contra hn
  simp only [not_or] at hn
  simp [Mgr.fetchRuleTable, hn.1, hn.2] at h

theorem Mgr.fetchRuleTable_saveRules (m : Mgr) (server name : String) (t : RuleTable)
    (h : name = E.ingressTable ∨ name = E.egressTable) :
    (m.saveRules E server name t).fetchRuleTable E server name = t := by
  unfold Mgr.saveRules Mgr.fetchRuleTable
  rcases h with rfl | rfl <;> split_ifs <;> simp_all

/-- **The tables account for the kernel over tidy runs.** From empty tables
over a kernel ruleset `rules₀`, every run of tidy calls leaves the kernel
holding `rules₀` and exactly the rules the tables record. Then
`RemoveRoutingRules` of a recorded peer, its deletions' `Flush`es succeeding,
returns `nil`, drops the entry, takes exactly the entry's rules out of the
kernel, and keeps the balance. -/
theorem tidy_run_balanced (E : Env) (rules₀ : List NfRule) (calls : List (Call × Replies))
    (m : Mgr) (htidy : tidyRun E (Mgr.init E rules₀) calls = true)
    (hrun : (Mgr.init E rules₀).run E calls = some m) :
    Balanced E rules₀ m ∧
      ∀ (server name key : String) (rep : Replies) (cfg : RulesCfg),
        (m.fetchRuleTable E server name).get? key = some cfg → rep.del.all id = true →
        (m.call E rep (.remove server name key)).1 = .ok ∧
        ((m.call E rep (.remove server name key)).2.fetchRuleTable E server name).get? key = none ∧
        kernelKeys (m.call E rep (.remove server name key)).2.rules + cfgKeys E cfg =
          kernelKeys m.rules ∧
        Balanced E rules₀ (m.call E rep (.remove server name key)).2 := by
  have hb := balanced_run E (Mgr.balanced_init E rules₀) htidy hrun
  refine ⟨hb, fun server name key rep cfg hc hdel => ?_⟩
  have hdel' : (m.world rep).deletesOk := by simpa [World.deletesOk, Mgr.world] using hdel
  rcases h : removeBody E key (m.fetchRuleTable E server name) (m.world rep) with ⟨o, t', w'⟩
  obtain ⟨ht, hrm⟩ := removeBody_tracks E key h ((hb.holds E rep server name).le E) hdel'
  obtain ⟨rfl, rfl, hk⟩ := hrm cfg hc
  have hname := Mgr.known_of_get? E hc
  refine ⟨by simp [Mgr.call, Mgr.locked, h], ?_, by simpa [Mgr.call, Mgr.locked, h] using hk,
    balanced_locked_of_eq E hb h ht (hname.elim Or.inl (Or.inr ∘ Or.inl))⟩
  simp only [Mgr.call, Mgr.locked, h, Mgr.fetchRuleTable_saveRules E _ _ _ _ hname,
    GoMap.get?_erase, if_true]

/-- Ext clients `a` and `b` of server `s` inserted one after the other. -/
def twoClients : List (Call × Replies) :=
  [(.insertIngress "s" (extAt "a" 2) [], .allOk), (.insertIngress "s" (extAt "b" 3) [], .allOk)]

theorem twoClients_balanced :
    tidyRun Env.sample (Mgr.init Env.sample []) twoClients = true ∧
      ∃ m, (Mgr.init Env.sample []).run Env.sample twoClients = some m ∧ Balanced Env.sample [] m :=
  ⟨by decide, _, rfl, (tidy_run_balanced Env.sample [] twoClients _ (by decide) rfl).1⟩

/-- **A repeated insert breaks the balance.** `InsertIngressRoutingRules`
run twice for one ext client, every `Flush` succeeding, overwrites the entry
and leaves two copies of its jump and network rules in the kernel, of which
the table records one. -/
theorem repeated_insert_drifts :
    ¬ ∀ (E : Env) (calls : List (Call × Replies)) (m : Mgr),
      (∀ j ∈ calls, ∀ b ∈ j.2.del, b = true) → (Mgr.init E []).run E calls = some m →
      Balanced E [] m := by
  intro h
  have := h Env.sample [(.insertIngress "s" (extAt "a" 2) [], .allOk),
    (.insertIngress "s" (extAt "a" 2) [], .allOk)] _ (by decide) rfl
  unfold Balanced at this
  exact absurd this (by decide)

end Router

end Netclient
