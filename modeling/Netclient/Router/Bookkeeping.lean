import Netclient.Router.Keys
/-!
# Router — the loops, counted in triples

The kernel side of the bookkeeping invariant (`Netclient.Router.Balance`),
loop by loop. The loops that put rules into the kernel return the rules
they record, and the kernel gains exactly their triples (`Adds`); the
deletion loops, given rules that are in the kernel and `deleteRule`s whose
`Flush`es succeed, take exactly those triples out. The table loops and the
refresh passes change the kernel as they change the table (`Tracks`,
`Holds`).
-/

namespace Netclient

namespace Router

variable (E : Env)

/-- `w'` is `w` with the rules `rs` put into the kernel. -/
def Adds (w : World) (rs : List RuleInfo) (w' : World) : Prop :=
  kernelKeys w'.rules = keysOf E rs + kernelKeys w.rules

/-- Putting no rule in changes no triple of the kernel. -/
theorem Adds.refl (w : World) : Adds E w [] w := by simp [Adds]

variable {E} in
/-- Rules put in one after another add up. -/
theorem Adds.trans {w₁ w₂ w₃ : World} {rs₁ rs₂ : List RuleInfo} (h₁ : Adds E w₁ rs₁ w₂)
    (h₂ : Adds E w₂ rs₂ w₃) : Adds E w₁ (rs₁ ++ rs₂) w₃ := by
  unfold Adds at *
  rw [h₂, h₁, keysOf_append]
  abel

/-- Inserting a coherent rule puts in the rules it keeps for the record. -/
theorem adds_add {r : RuleInfo} (hc : r.Coherent E) {w w' : World} {rs : List RuleInfo}
    (h : w.add r = (w', rs)) : Adds E w rs w' := by
  have := World.kernelKeys_add E hc w
  rw [h] at this
  exact this

/-- A coherent rule's insertion puts it in exactly when its `Flush` succeeds. -/
theorem adds_insertRule {r : RuleInfo} (hc : r.Coherent E) {w w' : World} {ok : Bool}
    (h : w.insertRule r.nfRule = (w', ok)) : Adds E w (if ok then [r] else []) w' := by
  have := w.kernelKeys_insertRule r.nfRule
  rw [h, hc] at this
  unfold Adds
  rw [this]
  split <;> simp [keysOf, Multiset.singleton_add]

/-- After inserting a coherent rule the kernel's triples stay within those seen, with the rule's. -/
theorem kernelKeys_add_le {r : RuleInfo} (hc : r.Coherent E) {w : World} {seen : Multiset Triple}
    (h : kernelKeys w.rules ≤ seen) : kernelKeys (w.add r).1.rules ≤ r.triple E ::ₘ seen := by
  rw [World.kernelKeys_add E hc]
  unfold World.add
  split
  · rename_i ok _
    cases ok
    · simpa using h.trans (Multiset.le_cons_self _ _)
    · simpa using Multiset.cons_le_cons _ h

/-! ## Loops that put rules into the kernel -/

section Adding

variable (isIpv4 : Bool)

/-- A peer's egress rules put into the kernel exactly the rules they record. -/
theorem peerRoutes_adds (peer : PeerRouteInfo) : ∀ {ranges : List CidrText} {w w' : World}
    {rs : List RuleInfo}, peerRoutes E isIpv4 peer ranges w = (w', rs) → Adds E w rs w'
  | [], w, _, _, h => by
    simp only [peerRoutes, Prod.mk.injEq] at h
    obtain ⟨rfl, rfl⟩ := h
    exact Adds.refl E w
  | r :: rs, w, _, _, h => by
    unfold peerRoutes at h
    rcases hp : r.parsed with _ | c <;> simp only [hp] at h
    · exact peerRoutes_adds peer h
    · rcases ha : w.add (egressPeerRule E isIpv4 peer.peerAddr r.text c) with ⟨w₁, a⟩
      rcases hr : peerRoutes E isIpv4 peer rs w₁ with ⟨w₂, rest⟩
      simp only [ha, hr, Prod.mk.injEq] at h
      obtain ⟨rfl, rfl⟩ := h
      exact (adds_add E (egressPeerRule_coherent ..) ha).trans (peerRoutes_adds peer hr)

/-- The ext client's egress-range rules put in exactly the rules they record. -/
theorem extRangeRoutes_adds (ext : IPNet) : ∀ {ranges : List CidrText} {w w' : World}
    {rs : List RuleInfo}, extRangeRoutes E isIpv4 ext ranges w = (w', rs) → Adds E w rs w'
  | [], w, _, _, h => by
    simp only [extRangeRoutes, Prod.mk.injEq] at h
    obtain ⟨rfl, rfl⟩ := h
    exact Adds.refl E w
  | r :: rs, w, _, _, h => by
    unfold extRangeRoutes at h
    rcases hp : r.parsed with _ | c <;> simp only [hp] at h
    · exact extRangeRoutes_adds ext h
    · rcases hi : w.insertRule (extRangeRule E isIpv4 ext r.text c .dst).nfRule with ⟨w₁, ok⟩
      have h₁ := adds_insertRule E (extRangeRule_coherent ..) hi
      cases ok
      · simp only [hi, Bool.not_false, if_true] at h
        simpa using h₁.trans (extRangeRoutes_adds ext h)
      · rcases ha : w₁.add (extRangeRule E isIpv4 ext r.text c .src) with ⟨w₂, b⟩
        rcases hr : extRangeRoutes E isIpv4 ext rs w₂ with ⟨w₃, rest⟩
        simp only [hi, ha, hr, Bool.not_true, if_false, Prod.mk.injEq] at h
        obtain ⟨rfl, rfl⟩ := h
        simpa using (h₁.trans (adds_add E (extRangeRule_coherent ..) ha)).trans
          (extRangeRoutes_adds ext hr)

/-- The ext client's MASQUERADE rules put in exactly the rules they record. -/
theorem extMasqRoutes_adds (ext : IPNet) {w w' : World} {rs : List RuleInfo}
    (h : extMasqRoutes E isIpv4 ext w = (w', rs)) : Adds E w rs w' := by
  unfold extMasqRoutes at h
  rcases ha : w.add (extMasqRule E isIpv4 ext .src) with ⟨w₁, a⟩
  rcases hb : w₁.add (extMasqRule E isIpv4 ext .dst) with ⟨w₂, b⟩
  simp only [ha, hb, Prod.mk.injEq] at h
  obtain ⟨rfl, rfl⟩ := h
  exact (adds_add E (extMasqRule_coherent ..) ha).trans (adds_add E (extMasqRule_coherent ..) hb)

/-- The triples of the MASQUERADE rules `natRoutes` puts in for one range. -/
def natTriples (ei : EgressInfo) (range : String) : List Triple :=
  match E.routeIface range with
  | none => []
  | some iface => [(egressNatRule E isIpv4 ei.network iface .src).triple E,
      (egressNatRule E isIpv4 ei.network iface .dst).triple E]

/-- `InsertEgressRoutingRules`' MASQUERADE rules find nothing to delete
before they go in: their triples differ, and none is in `seen`, which counts
the kernel's rules and those the call put in before them. -/
def natFresh (ei : EgressInfo) : List CidrText → Multiset Triple → Bool
  | [], _ => true
  | r :: rs, seen =>
    match r.parsed with
    | none => natFresh ei rs seen
    | some c =>
      let seen := (egressGwJumpRule E isIpv4 r.text c).triple E ::ₘ seen
      let nat := if ei.natEnabled = "yes" then natTriples E isIpv4 ei r.text else []
      decide (nat.Nodup ∧ ∀ τ ∈ nat, τ ∉ seen) && natFresh ei rs (↑nat + seen)

/-- A range's NAT rules, deleted by key and re-inserted, add exactly what they record when their
triples are fresh and distinct. -/
theorem natRoutes_adds (ei : EgressInfo) (range : String) {w w' : World} {rs : List RuleInfo}
    {seen : Multiset Triple} (h : natRoutes E ei isIpv4 range w = (w', rs))
    (hw : kernelKeys w.rules ≤ seen) (hnd : (natTriples E isIpv4 ei range).Nodup)
    (hf : ∀ τ ∈ natTriples E isIpv4 ei range, τ ∉ seen) :
    Adds E w rs w' ∧ kernelKeys w'.rules ≤ ↑(natTriples E isIpv4 ei range) + seen := by
  unfold natRoutes at h
  unfold natTriples at hnd hf ⊢
  rcases hi : E.routeIface range with _ | iface <;> simp only [hi] at h hnd hf ⊢
  · simp only [Prod.mk.injEq] at h
    obtain ⟨rfl, rfl⟩ := h
    exact ⟨Adds.refl E w, by simpa using hw⟩
  · have hs : (E.defaultNatTable, E.nattablePRTChain,
        (egressNatRule E isIpv4 ei.network iface .src).nfRule.key) ∉ seen :=
      hf _ (List.mem_cons_self _ _)
    have hd : (E.defaultNatTable, E.nattablePRTChain,
        (egressNatRule E isIpv4 ei.network iface .dst).nfRule.key) ∉ seen :=
      hf _ (List.mem_cons_of_mem _ (List.mem_singleton_self _))
    have hsd : (egressNatRule E isIpv4 ei.network iface .dst).triple E ≠
        (egressNatRule E isIpv4 ei.network iface .src).triple E := by
      simp only [List.nodup_cons, List.mem_singleton] at hnd
      exact Ne.symm hnd.1
    rw [World.deleteRule_of_not_mem fun hm => hs (Multiset.mem_of_le hw hm)] at h
    dsimp only at h
    rcases ha : w.add (egressNatRule E isIpv4 ei.network iface .src) with ⟨w₁, a⟩
    have hw₁ := kernelKeys_add_le E (egressNatRule_coherent E isIpv4 ei.network iface .src) hw
    rw [ha] at hw₁
    have hd₁ : (E.defaultNatTable, E.nattablePRTChain,
        (egressNatRule E isIpv4 ei.network iface .dst).nfRule.key) ∉ kernelKeys w₁.rules :=
      fun hm => (Multiset.mem_cons.1 (Multiset.mem_of_le hw₁ hm)).elim hsd hd
    rcases hb : w₁.add (egressNatRule E isIpv4 ei.network iface .dst) with ⟨w₂, b⟩
    have hw₂ := kernelKeys_add_le E (egressNatRule_coherent E isIpv4 ei.network iface .dst) hw₁
    rw [hb] at hw₂
    simp only [ha, World.deleteRule_of_not_mem hd₁, hb, Prod.mk.injEq] at h
    obtain ⟨rfl, rfl⟩ := h
    refine ⟨(adds_add E (egressNatRule_coherent ..) ha).trans
      (adds_add E (egressNatRule_coherent ..) hb), ?_⟩
    rwa [← Multiset.cons_coe, Multiset.cons_add, Multiset.coe_singleton, Multiset.singleton_add,
      Multiset.cons_swap]

/-- The egress gateway's rules for its ranges add exactly what they record when every range's NAT
triples are fresh. -/
theorem gwRoutes_adds (ei : EgressInfo) : ∀ {ranges : List CidrText} {w w' : World}
    {rs : List RuleInfo} {seen : Multiset Triple}, gwRoutes E ei isIpv4 ranges w = (w', rs) →
    kernelKeys w.rules ≤ seen → natFresh E isIpv4 ei ranges seen = true → Adds E w rs w'
  | [], w, _, _, _, h, _, _ => by
    simp only [gwRoutes, Prod.mk.injEq] at h
    obtain ⟨rfl, rfl⟩ := h
    exact Adds.refl E w
  | r :: rs, w, _, _, seen, h, hw, hf => by
    unfold gwRoutes at h
    unfold natFresh at hf
    rcases hp : r.parsed with _ | c <;> simp only [hp] at h hf
    · exact gwRoutes_adds ei h hw hf
    · rcases ha : w.add (egressGwJumpRule E isIpv4 r.text c) with ⟨w₁, jump⟩
      have hw₁ := kernelKeys_add_le E (egressGwJumpRule_coherent E isIpv4 r.text c) hw
      rw [ha] at hw₁
      have h₁ := adds_add E (egressGwJumpRule_coherent E isIpv4 r.text c) ha
      simp only [Bool.and_eq_true, decide_eq_true_eq] at hf
      obtain ⟨⟨hnd, hfr⟩, hrest⟩ := hf
      by_cases hnat : ei.natEnabled = "yes"
      · simp only [hnat, if_true] at hnd hfr hrest
        rcases hn : natRoutes E ei isIpv4 r.text w₁ with ⟨w₂, nat⟩
        obtain ⟨h₂, hw₂⟩ := natRoutes_adds E isIpv4 ei r.text hn hw₁ hnd hfr
        rcases hr : gwRoutes E ei isIpv4 rs w₂ with ⟨w₃, rest⟩
        simp only [ha, hnat, if_true, hn, hr, Prod.mk.injEq] at h
        obtain ⟨rfl, rfl⟩ := h
        exact (h₁.trans h₂).trans (gwRoutes_adds ei hr hw₂ hrest)
      · simp only [hnat, if_false, Multiset.coe_nil, zero_add] at hrest
        rcases hr : gwRoutes E ei isIpv4 rs w₁ with ⟨w₃, rest⟩
        simp only [ha, hnat, if_false, hr, Prod.mk.injEq] at h
        obtain ⟨rfl, rfl⟩ := h
        simpa using h₁.trans (gwRoutes_adds ei hr hw₁ hrest)

end Adding

/-! ## Loops that delete recorded rules -/

/-- One recorded rule's deletion, when its triple is in the kernel. -/
theorem deleteRule_step {r : RuleInfo} {rs : List RuleInfo} {w : World}
    (hle : keysOf E (r :: rs) ≤ kernelKeys w.rules) (hdel : w.deletesOk) :
    ∃ w₁, w.deleteRule r.table r.chain (E.genRuleKey r.rule) = (w₁, none) ∧
      kernelKeys w₁.rules + {r.triple E} = kernelKeys w.rules ∧ w₁.deletesOk ∧
      keysOf E rs ≤ kernelKeys w₁.rules := by
  have hmem : (r.table, r.chain, E.genRuleKey r.rule) ∈ kernelKeys w.rules :=
    Multiset.mem_of_le hle (by rw [keysOf_cons]; exact Multiset.mem_cons_self _ _)
  obtain ⟨hnone, hk, hdel₁, -⟩ := World.deleteRule_of_mem hmem hdel
  refine ⟨_, Prod.ext rfl hnone, hk, hdel₁, ?_⟩
  rw [keysOf_cons, ← hk, add_comm, Multiset.singleton_add] at hle
  exact (Multiset.cons_le_cons_iff _).1 hle

/-- Deleting rules whose triples are all in the kernel succeeds and takes
exactly their triples out. -/
theorem deleteRules_of_le (key : String) : ∀ {rs : List RuleInfo} {w : World},
    keysOf E rs ≤ kernelKeys w.rules → w.deletesOk →
    (deleteRules E key rs w).2 = none ∧
      kernelKeys (deleteRules E key rs w).1.rules + keysOf E rs = kernelKeys w.rules
  | [], w, _, _ => by simp [deleteRules]
  | r :: rs, w, hle, hdel => by
    obtain ⟨w₁, hd, hk, hdel₁, hle₁⟩ := deleteRule_step E hle hdel
    obtain ⟨h₁, h₂⟩ := deleteRules_of_le key hle₁ hdel₁
    simp only [deleteRules, hd]
    refine ⟨h₁, ?_⟩
    rw [keysOf_cons, ← Multiset.singleton_add, add_left_comm, h₂, add_comm, hk]

/-- `CleanRoutingRules`' loop over rules all in the kernel takes exactly their triples out. -/
theorem cleanRules_of_le : ∀ {rs : List RuleInfo} {w : World},
    keysOf E rs ≤ kernelKeys w.rules → w.deletesOk →
    kernelKeys (cleanRules E rs w).rules + keysOf E rs = kernelKeys w.rules
  | [], w, _, _ => by simp [cleanRules]
  | r :: rs, w, hle, hdel => by
    obtain ⟨w₁, hd, hk, hdel₁, hle₁⟩ := deleteRule_step E hle hdel
    simp only [cleanRules, hd]
    rw [keysOf_cons, ← Multiset.singleton_add, add_left_comm, cleanRules_of_le hle₁ hdel₁,
      add_comm, hk]

/-- Dropping an ext client's egress-range rules, all in the kernel, succeeds, keeps the others, and
takes exactly their triples out. -/
theorem dropRangeRules_of_le (extKey : String) : ∀ {rs : List RuleInfo} {w : World},
    keysOf E (rs.filter (·.egressExtRule)) ≤ kernelKeys w.rules → w.deletesOk →
    ∃ w', dropRangeRules E extKey rs w = (w', .ok (rs.filter fun r => !r.egressExtRule)) ∧
      kernelKeys w'.rules + keysOf E (rs.filter (·.egressExtRule)) = kernelKeys w.rules ∧
      w'.deletesOk
  | [], w, _, hdel => ⟨w, rfl, by simp, hdel⟩
  | r :: rs, w, hle, hdel => by
    unfold dropRangeRules
    cases he : r.egressExtRule
    · rw [List.filter_cons_of_neg (by simp [he])] at hle
      obtain ⟨w', hd, hk, hdel'⟩ := dropRangeRules_of_le extKey hle hdel
      refine ⟨w', ?_, by rw [List.filter_cons_of_neg (by simp [he]), hk], hdel'⟩
      simp [hd, List.filter_cons, he, Except.map]
    · rw [List.filter_cons_of_pos he] at hle
      obtain ⟨w₁, hd, hk, hdel₁, hle₁⟩ := deleteRule_step E hle hdel
      obtain ⟨w', hd', hk', hdel'⟩ := dropRangeRules_of_le extKey hle₁ hdel₁
      refine ⟨w', by simp [hd, hd', List.filter_cons, he], ?_, hdel'⟩
      rw [List.filter_cons_of_pos he, keysOf_cons, ← Multiset.singleton_add, add_left_comm, hk',
        add_comm, hk]

/-! ## Loops over a table -/

/-- `ruleTable[k].rulesMap[k'] = rs` on a key that recorded nothing, after
the rules `rs` went into the kernel. -/
theorem tracks_putRules {t : RuleTable} {k k' : String} {cfg : RulesCfg} (h : t.get? k = some cfg)
    (hold : ((cfg.rulesMap.get? k').map (keysOf E)).getD 0 = 0) {w w' : World}
    {rs : List RuleInfo} (ha : Adds E w rs w') : Tracks E t w (t.putRules k k' rs) w' := by
  have := tableKeys_putRules E h k' rs
  rw [hold, add_zero] at this
  unfold Tracks
  rw [ha, this]
  abel

/-- A step that puts in no rule and leaves the table keeps the table's record exact. -/
theorem tracks_of_adds_nil {t : RuleTable} {w w' : World} (ha : Adds E w [] w') :
    Tracks E t w t w' := by
  unfold Tracks
  rw [ha, keysOf_nil, zero_add]

section Peers

variable (isIpv4 : Bool)

/-- The egress gateway's loop over its peers records exactly what it puts in. -/
theorem gwPeerRoutes_tracks (ei : EgressInfo) : ∀ {ps : List PeerRouteInfo} {t t' : RuleTable}
    {w w' : World} {cfg : RulesCfg}, gwPeerRoutes E ei isIpv4 ps t w = (t', w') →
    t.get? ei.egressID = some cfg →
    (∀ p ∈ ps, p.allow = true → cfg.rulesMap.get? p.peerKey = none) →
    ((ps.filter (·.allow)).map (·.peerKey)).Nodup →
    Tracks E t w t' w' ∧ ∃ cfg', t'.get? ei.egressID = some cfg' ∧
      ∀ k, (∀ p ∈ ps, p.allow = true → p.peerKey ≠ k) → cfg'.rulesMap.get? k = cfg.rulesMap.get? k
  | [], t, _, w, _, cfg, h, hc, _, _ => by
    simp only [gwPeerRoutes, Prod.mk.injEq] at h
    obtain ⟨rfl, rfl⟩ := h
    exact ⟨Tracks.refl E t w, cfg, hc, fun _ _ => rfl⟩
  | p :: ps, t, _, w, _, cfg, h, hc, hfree, hnd => by
    unfold gwPeerRoutes at h
    cases hp : p.allow
    · simp only [hp, Bool.not_false, if_true] at h
      rw [List.filter_cons_of_neg (by simp [hp])] at hnd
      obtain ⟨ht, cfg', hc', hk⟩ :=
        gwPeerRoutes_tracks ei h hc (fun q hq => hfree q (List.mem_cons_of_mem _ hq)) hnd
      exact ⟨ht, cfg', hc', fun k hk' => hk k fun q hq => hk' q (List.mem_cons_of_mem _ hq)⟩
    · rcases hr : peerRoutes E isIpv4 p ei.ranges w with ⟨w₁, rs⟩
      simp only [hp, Bool.not_true, if_false, hr] at h
      rw [List.filter_cons_of_pos hp, List.map_cons, List.nodup_cons] at hnd
      have hne : ∀ q ∈ ps, q.allow = true → q.peerKey ≠ p.peerKey := fun q hq hqa he =>
        hnd.1 (he ▸ List.mem_map_of_mem _ (List.mem_filter.2 ⟨hq, hqa⟩))
      have hc₁ : (t.putRules ei.egressID p.peerKey rs).get? ei.egressID =
          some { cfg with rulesMap := cfg.rulesMap.insert p.peerKey rs } := by
        simp [hc]
      obtain ⟨ht, cfg', hc', hk⟩ := gwPeerRoutes_tracks ei h hc₁
        (fun q hq hqa => by simp [hne q hq hqa, hfree q (List.mem_cons_of_mem _ hq) hqa]) hnd.2
      refine ⟨(tracks_putRules E hc (by simp [hfree p (List.mem_cons_self _ _) hp])
        (peerRoutes_adds E isIpv4 p hr)).trans ht, cfg', hc', fun k hk' => ?_⟩
      rw [hk k fun q hq => hk' q (List.mem_cons_of_mem _ hq)]
      simp [Ne.symm (hk' p (List.mem_cons_self _ _) hp)]

/-- The ext client's loop over the ingress peers records exactly what it puts in. -/
theorem extPeerRoutes_tracks (ext : ExtClientInfo) : ∀ {ps : List PeerRouteInfo} {t t' : RuleTable}
    {w w' : World} {cfg : RulesCfg}, extPeerRoutes E isIpv4 ext ps t w = (t', w') →
    t.get? ext.extPeerKey = some cfg →
    (∀ p ∈ ps, (p.allow && p.peerKey != ext.extPeerKey) = true →
      cfg.rulesMap.get? p.peerKey = none) →
    ((ps.filter fun p => p.allow && p.peerKey != ext.extPeerKey).map (·.peerKey)).Nodup →
    Tracks E t w t' w' ∧ ∃ cfg', t'.get? ext.extPeerKey = some cfg' ∧
      cfg'.rulesMap.get? ext.extPeerKey = cfg.rulesMap.get? ext.extPeerKey
  | [], t, _, w, _, cfg, h, hc, _, _ => by
    simp only [extPeerRoutes, Prod.mk.injEq] at h
    obtain ⟨rfl, rfl⟩ := h
    exact ⟨Tracks.refl E t w, cfg, hc, rfl⟩
  | p :: ps, t, _, w, _, cfg, h, hc, hfree, hnd => by
    unfold extPeerRoutes at h
    by_cases hp : (p.allow && p.peerKey != ext.extPeerKey) = true
    · have hp' : (!p.allow || p.peerKey == ext.extPeerKey) = false := by
        revert hp
        cases p.allow <;> simp
      rw [List.filter_cons, if_pos hp, List.map_cons, List.nodup_cons] at hnd
      have hne : ∀ q ∈ ps, (q.allow && q.peerKey != ext.extPeerKey) = true →
          q.peerKey ≠ p.peerKey := fun q hq hqa he =>
        hnd.1 (he ▸ List.mem_map_of_mem _ (List.mem_filter.2 ⟨hq, hqa⟩))
      have hpk : p.peerKey ≠ ext.extPeerKey := by
        simp only [Bool.and_eq_true, bne_iff_ne, ne_eq] at hp
        exact hp.2
      rcases hi : w.insertRule (extPeerRule E isIpv4 ext.extPeerAddr p.peerAddr).nfRule with
        ⟨w₁, ok⟩
      have ha := adds_insertRule E (extPeerRule_coherent ..) hi
      simp only [hp', if_false, hi] at h
      cases ok
      · rw [if_neg Bool.false_ne_true] at h ha
        obtain ⟨ht, cfg', hc', hk⟩ := extPeerRoutes_tracks ext h hc
          (fun q hq hqa => hfree q (List.mem_cons_of_mem _ hq) hqa) hnd.2
        exact ⟨(tracks_of_adds_nil E ha).trans ht, cfg', hc', hk⟩
      · rw [if_pos rfl] at h ha
        have hc₁ : (t.putRules ext.extPeerKey p.peerKey
            [extPeerRule E isIpv4 ext.extPeerAddr p.peerAddr]).get? ext.extPeerKey =
            some { cfg with rulesMap := (cfg.rulesMap.insert p.peerKey
              [extPeerRule E isIpv4 ext.extPeerAddr p.peerAddr]) } := by
          simp [hc]
        obtain ⟨ht, cfg', hc', hk⟩ := extPeerRoutes_tracks ext h hc₁
          (fun q hq hqa => by simp [hne q hq hqa, hfree q (List.mem_cons_of_mem _ hq) hqa]) hnd.2
        refine ⟨(tracks_putRules E hc (by simp [hfree p (List.mem_cons_self _ _) hp]) ha).trans ht,
          cfg', hc', ?_⟩
        rw [hk]
        simp [Ne.symm hpk]
    · have hp' : (!p.allow || p.peerKey == ext.extPeerKey) = true := by
        revert hp
        cases p.allow <;> simp
      rw [List.filter_cons, if_neg hp] at hnd
      simp only [hp', if_true] at h
      exact extPeerRoutes_tracks ext h hc (fun q hq => hfree q (List.mem_cons_of_mem _ hq)) hnd

end Peers

/-! ## The two passes of `RefreshEgressRangesOnIngressGw` -/

/-- The kernel is `X` and what the table records. -/
def Holds (X : Multiset Triple) (t : RuleTable) (w : World) : Prop :=
  kernelKeys w.rules = X + tableKeys E t

variable {E} in
/-- Two states that both hold over the same rest track each other. -/
theorem tracks_of_holds {X : Multiset Triple} {t t' : RuleTable} {w w' : World}
    (h : Holds E X t w) (h' : Holds E X t' w') : Tracks E t w t' w' := by
  unfold Holds Tracks at *
  rw [h, h']
  abel

/-- The deletion pass deletes every entry's egress-range rules, and the
entries keep their other rules. -/
theorem dropRanges_holds {X : Multiset Triple} : ∀ {es : List (String × RulesCfg)} {t : RuleTable}
    {w : World}, (es.map Prod.fst).Nodup → (∀ e ∈ es, t.get? e.1 = some e.2) → Holds E X t w →
    w.deletesOk → ∃ t' w', dropRanges E es t w = (.ok, t', w') ∧ Holds E X t' w'
  | [], t, w, _, _, h, _ => ⟨t, w, rfl, h⟩
  | (k, cfg) :: es, t, w, hnd, hes, h, hdel => by
    rw [List.map_cons, List.nodup_cons] at hnd
    have hk : t.get? k = some cfg := hes _ (List.mem_cons_self _ _)
    have hes' : ∀ e ∈ es, t.get? e.1 = some e.2 := fun e he => hes e (List.mem_cons_of_mem _ he)
    unfold dropRanges
    rcases hr : cfg.rulesMap.get? k with _ | rs
    · exact dropRanges_holds hnd.2 hes' h hdel
    · have hle : keysOf E (rs.filter (·.egressExtRule)) ≤ kernelKeys w.rules :=
        (keysOf_filter_le E _ rs).trans ((keysOf_le_cfgKeys E hr).trans
          ((cfgKeys_le_tableKeys E hk).trans (h ▸ Multiset.le_add_left _ _)))
      obtain ⟨w₁, hd, hK, hdel₁⟩ := dropRangeRules_of_le E k hle hdel
      simp only [hd]
      have h₂ := GoMap.sumBy_insert (keysOf E) cfg.rulesMap k (rs.filter fun r => !r.egressExtRule)
      rw [hr, Option.map_some', Option.getD_some, ← keysOf_filter_add E (·.egressExtRule) rs] at h₂
      have hc : cfgKeys E { cfg with rulesMap :=
          (cfg.rulesMap.insert k (rs.filter fun r => !r.egressExtRule)) } +
          keysOf E (rs.filter (·.egressExtRule)) = cfgKeys E cfg :=
        add_right_cancel (b := keysOf E (rs.filter fun r => !r.egressExtRule))
          (by rw [add_assoc]; exact h₂)
      have h₃ := tableKeys_insert E t k { cfg with rulesMap :=
          (cfg.rulesMap.insert k (rs.filter fun r => !r.egressExtRule)) }
      rw [hk, Option.map_some', Option.getD_some, ← hc] at h₃
      refine dropRanges_holds hnd.2 (fun e he => ?_) ?_ hdel₁
      · have he₁ : e.1 ∈ es.map Prod.fst := List.mem_map_of_mem _ he
        rw [GoMap.get?_insert, if_neg fun (he' : e.1 = k) => hnd.1 (he' ▸ he₁)]
        exact hes' e he
      · apply add_right_cancel (b := keysOf E (rs.filter (·.egressExtRule)))
        rw [hK, h]
        apply add_right_cancel (b := cfgKeys E { cfg with rulesMap :=
          (cfg.rulesMap.insert k (rs.filter fun r => !r.egressExtRule)) })
        rw [add_assoc X, ← h₃]
        abel

/-- The re-creation pass records exactly the rules it puts in. -/
theorem addRanges_tracks (ranges : List CidrText) : ∀ {es : List (String × ExtClientInfo)}
    {t t' : RuleTable} {w w' : World}, addRanges E ranges es t w = (t', w') → Tracks E t w t' w'
  | [], t, _, w, _, h => by
    simp only [addRanges, Prod.mk.injEq] at h
    obtain ⟨rfl, rfl⟩ := h
    exact Tracks.refl E t w
  | (k, ext) :: es, t, _, w, _, h => by
    unfold addRanges at h
    rcases hk : t.get? k with _ | cfg <;> simp only [hk] at h
    · exact addRanges_tracks ranges h
    · rcases hr : extRangeRoutes E (E.isAddrIpv4 (E.ipNetString ext.extPeerAddr)) ext.extPeerAddr
        ranges w with ⟨w₁, rs⟩
      simp only [hr] at h
      have ha := extRangeRoutes_adds E _ _ hr
      have hp := tableKeys_putRules E hk k (((cfg.rulesMap.get? k).getD []) ++ rs)
      rw [keysOf_getD, keysOf_append] at hp
      refine Tracks.trans ?_ (addRanges_tracks ranges h)
      unfold Tracks
      apply add_right_cancel (b := keysOf E ((cfg.rulesMap.get? k).getD []))
      rw [add_assoc (kernelKeys w.rules), hp, ha]
      abel

end Router

end Netclient
