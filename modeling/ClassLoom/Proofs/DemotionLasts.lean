import ClassLoom.Proofs.DelegationCache
import ClassLoom.Proofs.PassDemotion

/-!
# How long a demotion lasts

A transformer is demoted by excluding it by name, and a list of delegated transformers that
is built afterwards does not hold it. Nothing ever takes an exclusion back, and no stale list
comes back either, so no pass that starts after the demotion gets to see the transformer.

A pass that was under way holds its list, though, and goes on with it. Demotions happen in
passes that are as deep as they may be, so where passes may nest, every demotion happens
inside passes that are less deep, and those still call the transformer when they get to it.
What is true is that nobody else does (`demotion_lasts`). Where passes may not nest nobody is
left, and there a demoted transformer is never called again.

The argument follows the log. Of a part of it we know which transformers were demoted when it
began; `Lasting` says that none of these is called in it but by the pass at hand, out of the
list that it still has to go through, and that whoever is called after a demotion within the
part is called by a pass that had started before. Both survive putting parts together.
-/

namespace ClassLoom

variable {σ : Type}

/-! ## Names that are told apart -/

namespace Service

/-- The names of the registered transformers are all different. -/
def Distinct (s : Service σ) : Prop :=
  (s.registry.map Transformer.name).Nodup

instance (s : Service σ) : Decidable s.Distinct :=
  inferInstanceAs (Decidable (List.Nodup _))

theorem Distinct.of_evolves {P : Transformer σ → Prop} {s s' : Service σ} (h : s'.Distinct)
    (hevolves : s.Evolves P s') : s.Distinct :=
  (hevolves.registry_prefix.sublist.map _).nodup h

/-! ## Demoted transformers and lists -/

/-- Whoever was demoted is excluded. -/
def BarsDemoted (s : Service σ) : Prop :=
  ∀ t ∈ s.demoted, normalize t ∈ s.exclusions.transform

theorem mem_transform_excludeTransformer (s : Service σ) (t : String) :
    normalize t ∈ (s.excludeTransformer t).exclusions.transform := by
  show _ ∈ (s.exclusions.exclude .transform t).2.transform
  by_cases hold : normalize t ∈ s.exclusions.transform
  · rwa [Exclusions.exclude_transform_of_mem hold]
  · rw [Exclusions.exclude_transform_of_notMem hold]
    exact List.mem_append_right _ (List.mem_singleton.mpr rfl)

theorem BarsDemoted.demote {s : Service σ} (h : s.BarsDemoted) (t : String) :
    (s.demote t).BarsDemoted := by
  have hgrown : s.exclusions.transform ⊆ (s.demote t).exclusions.transform :=
    (s.evolves_demote (P := fun _ => True) t).transform_subset
  intro u hu
  rcases List.mem_append.mp hu with hu | hu
  · exact hgrown (h u hu)
  · rw [List.mem_singleton.mp hu]
    exact s.mem_transform_excludeTransformer t

/-- The delegated transformers are among the registered ones, in their order, and no
registered prefix excludes them, whether the list is built or was cached. -/
theorem Reachable.delegated_admitted {s : Service σ} (h : s.Reachable) :
    s.delegated.1.Sublist s.registry ∧ ∀ t ∈ s.delegated.1, s.exclusions.admits t = true := by
  obtain ⟨config, options, history, rfl⟩ := h
  cases hcurrent : ((fresh config options : Service σ).after history).current? with
  | none =>
      rw [delegated_of_stale hcurrent]
      exact ⟨List.filter_sublist, fun t ht => (List.mem_filter.mp ht).2⟩
  | some ts =>
      obtain ⟨before, since, hlast, hsince⟩ :=
        exists_lastRebuild (timely_fresh config options) rfl hcurrent
      rw [(hlast.delegated_eq (timely_fresh config options) hsince).2]
      exact ⟨List.filter_sublist.trans (List.take_sublist _ _),
        fun t ht => (List.mem_filter.mp ht).2⟩

theorem notMem_of_admits {e : Exclusions} {t : Transformer σ} (h : e.admits t = true) :
    normalize t.name ∉ e.transform := by
  intro hmem
  have hany : (e.transform.any fun start => startsWith (normalize t.name) start) = true :=
    List.any_eq_true.mpr ⟨_, hmem, by simp [startsWith]⟩
  rw [admits_eq, hany] at h
  simp at h

/-- A list that a service gives holds none of the demoted transformers. -/
theorem BarsDemoted.notMem_delegated {s : Service σ} (h : s.BarsDemoted) (hreachable : s.Reachable)
    {n : String} (hn : n ∈ s.delegated.1.map Transformer.name) : n ∉ s.demoted := by
  obtain ⟨t, ht, rfl⟩ := List.mem_map.mp hn
  exact fun hdemoted => notMem_of_admits (hreachable.delegated_admitted.2 t ht) (h _ hdemoted)

end Service

/-- The transformer is called. -/
def Event.isCallOf (t : String) : Event σ → Bool
  | .calling u _ _ => u == t
  | _ => false

namespace Pass

/-! ## Parts of a log -/

/-- What is known of a part of a log, where a pass that is `j` deep is at work. It has the
transformers `names` to run, and `old` were demoted before. -/
structure Lasting (d j : Nat) (names old : List String) (part : List (Event σ)) : Prop where
  /-- The passes that start are deeper. -/
  deeper : ∀ k, .entered k ∈ part → j < k
  /-- Of those who were demoted before, only the pass itself calls any. -/
  spared : ∀ t k c, .calling t k c ∈ part → t ∈ old → k = j ∧ 1 ≤ j ∧ j < d ∧ t ∈ names
  /-- Whoever is called after a demotion is called by a pass that had started before. -/
  held : ∀ before t mid k c after,
    part = before ++ .demoted t :: (mid ++ .calling t k c :: after) →
      1 ≤ k ∧ k < d ∧ .entered k ∉ mid

section Parts

variable {d j : Nat} {names names' old : List String} {part part' : List (Event σ)}

theorem lasting_of_no_calls (hdeeper : ∀ k, .entered k ∈ part → j < k)
    (hcalls : ∀ t k c, .calling t k c ∉ part) : Lasting d j names old part where
  deeper := hdeeper
  spared t k c hcall := absurd hcall (hcalls t k c)
  held before t mid k c after hpart := by
    refine absurd ?_ (hcalls t k c)
    rw [hpart]
    simp

theorem lasting_calling {t : String} {c : Class} (ht : t ∈ names)
    (hold : t ∈ old → 1 ≤ j ∧ j < d) : Lasting d j names old [(.calling t j c : Event σ)] where
  deeper k hk := by simp at hk
  spared u k b hcall hu := by
    cases List.mem_singleton.mp hcall
    exact ⟨rfl, (hold hu).1, (hold hu).2, ht⟩
  held before u mid k b after hpart := by
    have hlength := congrArg List.length hpart
    simp at hlength
    omega

theorem Lasting.mono (h : Lasting d j names old part) (hnames : names ⊆ names') :
    Lasting d j names' old part where
  deeper := h.deeper
  spared t k c hcall hold := by
    obtain ⟨hk, hj, hd, ht⟩ := h.spared t k c hcall hold
    exact ⟨hk, hj, hd, hnames ht⟩
  held := h.held

/-- Seen from outside, a pass calls nobody who was demoted before it started. -/
theorem Lasting.outside (h : Lasting d (j + 1) names old part)
    (hnew : ∀ n ∈ names, n ∉ old) : Lasting d j [] old part where
  deeper k hk := Nat.lt_of_succ_lt (h.deeper k hk)
  spared t k c hcall hold := absurd hold (hnew t (h.spared t k c hcall hold).2.2.2)
  held := h.held

theorem Lasting.held_across (h : Lasting d j names old part)
    (h' : Lasting d j names (old ++ part.filterMap Event.demotion?) part')
    {before mid after : List (Event σ)} {t : String} {k : Nat} {c : Class}
    (hpart : part = before ++ .demoted t :: mid) (mid' : List (Event σ))
    (hpart' : part' = mid' ++ .calling t k c :: after) :
    1 ≤ k ∧ k < d ∧ .entered k ∉ mid ++ mid' := by
  have hdemoted : t ∈ part.filterMap Event.demotion? :=
    List.mem_filterMap.mpr ⟨.demoted t, by rw [hpart]; simp, rfl⟩
  obtain ⟨rfl, hpos, hless, -⟩ :=
    h'.spared t k c (by rw [hpart']; simp) (List.mem_append_right _ hdemoted)
  refine ⟨hpos, hless, ?_⟩
  intro hmem
  rcases List.mem_append.mp hmem with hmem | hmem
  · exact Nat.lt_irrefl _ (h.deeper k (by rw [hpart]; simp [hmem]))
  · exact Nat.lt_irrefl _ (h'.deeper k (by rw [hpart']; simp [hmem]))

/-- Who is called in the second part after being demoted in the first is called by the pass
at hand, which neither part starts. -/
theorem Lasting.append (h : Lasting d j names old part)
    (h' : Lasting d j names (old ++ part.filterMap Event.demotion?) part') :
    Lasting d j names old (part ++ part') where
  deeper k hk := by
    rcases List.mem_append.mp hk with hk | hk
    · exact h.deeper k hk
    · exact h'.deeper k hk
  spared t k c hcall hold := by
    rcases List.mem_append.mp hcall with hcall | hcall
    · exact h.spared t k c hcall hold
    · exact h'.spared t k c hcall (List.mem_append_left _ hold)
  held before t mid k c after hpart := by
    rcases List.append_eq_append_iff.mp hpart with
      ⟨more, hbefore, hpart'⟩ | ⟨more, hfirst, hrest⟩
    · exact h'.held more t mid k c after hpart'
    cases more with
    | nil => exact h'.held [] t mid k c after hrest.symm
    | cons e more =>
        rw [List.cons_append] at hrest
        injection hrest with he hrest
        subst he
        rcases List.append_eq_append_iff.mp hrest with
          ⟨mid', hmore, hafter⟩ | ⟨mid', hmid, hpart'⟩
        · cases mid' with
          | nil =>
              rw [List.append_nil] at hmore
              subst hmore
              have hacross := h.held_across h' hfirst [] hafter.symm
              rwa [List.append_nil] at hacross
          | cons e mid' =>
              rw [List.cons_append] at hafter
              injection hafter with he hafter
              subst he
              refine h.held before t mid k c mid' ?_
              rw [hfirst, hmore]
        · subst hmid
          exact h.held_across h' hfirst mid' hpart'

end Parts

/-- What a part of a log tells of the service before and after it. -/
structure Retires (d j : Nat) (names : List String) (s s' : Service σ) (part : List (Event σ)) :
    Prop where
  evolves : s.Evolves Transformer.Tame s'
  demoted_eq : s'.demoted = s.demoted ++ part.filterMap Event.demotion?
  bars : s.BarsDemoted → s'.BarsDemoted
  nodup : s.demoted.Nodup → s'.demoted.Nodup
  lasting : Lasting d j names s.demoted part

section Retires

variable {d j : Nat} {names names' : List String} {s s' s'' : Service σ}
  {part part' : List (Event σ)}

/-- Nobody is demoted. -/
theorem retires_of_quiet (hevolves : s.Evolves Transformer.Tame s') (hsame : s'.demoted = s.demoted)
    (hquiet : part.filterMap Event.demotion? = []) (hlasting : Lasting d j names s.demoted part) :
    Retires d j names s s' part where
  evolves := hevolves
  demoted_eq := by rw [hquiet, List.append_nil, hsame]
  bars hbars t ht := by
    rw [hsame] at ht
    exact hevolves.transform_subset (hbars t ht)
  nodup hnodup := by rwa [hsame]
  lasting := hlasting

theorem retires_nil (hevolves : s.Evolves Transformer.Tame s') (hsame : s'.demoted = s.demoted) :
    Retires d j names s s' [] :=
  retires_of_quiet hevolves hsame rfl (lasting_of_no_calls (by simp) (by simp))

theorem retires_demote {t : String} (hnew : t ∉ s.demoted) :
    Retires d j names s (s.demote t) [.demoted t] where
  evolves := s.evolves_demote t
  demoted_eq := rfl
  bars hbars := hbars.demote t
  nodup hnodup := by
    refine List.nodup_append.mpr ⟨hnodup, by simp, ?_⟩
    intro u hu v hv
    rw [List.mem_singleton.mp hv]
    exact ne_of_mem_of_not_mem hu hnew
  lasting := lasting_of_no_calls (by simp) (by simp)

theorem Retires.trans (h : Retires d j names s s' part) (h' : Retires d j names s' s'' part') :
    Retires d j names s s'' (part ++ part') where
  evolves := h.evolves.trans h'.evolves
  demoted_eq := by rw [h'.demoted_eq, h.demoted_eq, List.filterMap_append, List.append_assoc]
  bars hbars := h'.bars (h.bars hbars)
  nodup hnodup := h'.nodup (h.nodup hnodup)
  lasting := by
    have hlater := h'.lasting
    rw [h.demoted_eq] at hlater
    exact h.lasting.append hlater

theorem Retires.mono (h : Retires d j names s s' part) (hnames : names ⊆ names') :
    Retires d j names' s s' part :=
  { h with lasting := h.lasting.mono hnames }

theorem Retires.outside (h : Retires d (j + 1) names s s' part)
    (hnew : ∀ n ∈ names, n ∉ s.demoted) : Retires d j [] s s' part :=
  { h with lasting := h.lasting.outside hnew }

end Retires

/-! ## What a job tells -/

section Rules

variable {inner : Request σ → SessionM σ Reply} {job : Job σ} {p q : Pass σ} {d j : Nat}
  {names : List String}

/-- Requests that run no transformer demote nobody. -/
theorem demoted_of_isDirect {request : Request σ} (hdirect : request.isDirect = true)
    {s s' : Session σ} {reply : Reply}
    (h : Session.answerWith inner request s = some (reply, s')) :
    s'.service.demoted = s.service.demoted := by
  obtain ⟨reply', s'', hsome, hservice⟩ := Session.answerWith_of_isDirect inner hdirect s
  rw [h] at hsome
  cases hsome
  rw [hservice]
  cases request with
  | exclude kind start =>
      simp only [Request.changes]
      split
      · rfl
      · rfl
  | _ => rfl

/-- The names of the transformers that the job has to run. -/
def Job.runs : Job σ → List String
  | .load _ _ | .routine _ _ => []
  | .transform _ _ ts _ _ => ts.map Transformer.name

/-- What a job needs where passes may nest `d` deep: it does not start too deep, and the flag
is down unless the pass is as deep as it may be. In a pass that is as deep as it may be, the
transformers that are to be run are different, and none of them was demoted. -/
def Job.Able (d : Nat) (p : Pass σ) : Job σ → Prop
  | .load _ _ | .routine _ _ => p.guard.depth ≤ d ∧ (p.guard.depth < d → p.guard.raised = false)
  | .transform _ _ ts _ _ => 1 ≤ p.guard.depth ∧ p.guard.depth ≤ d ∧ p.guard.raised = false ∧
      (p.guard.depth = d → (ts.map Transformer.name).Nodup ∧
        ∀ t ∈ ts, t.name ∉ p.session.service.demoted)

/-- In a pass that is as deep as it may be, nobody is demoted during a call. -/
def Job.Quiet (d : Nat) (p : Pass σ) (part : List (Event σ)) : Job σ → Prop
  | .load _ _ | .routine _ _ => p.guard.depth = d → part.filterMap Event.demotion? = []
  | .transform _ _ _ _ _ => True

/-- The part is what happened between two moments of a load. -/
structure Retired (d j : Nat) (names : List String) (p q : Pass σ) (part : List (Event σ)) :
    Prop where
  events : q.events = part.reverse ++ p.events
  retires : Retires d j names p.session.service q.session.service part

theorem Retired.trans {r : Pass σ} {part part' : List (Event σ)} (h : Retired d j names p q part)
    (h' : Retired d j names q r part') : Retired d j names p r (part ++ part') where
  events := by simp [h'.events, h.events]
  retires := h.retires.trans h'.retires

/-- A move that is noted by events which are neither calls nor demotions. -/
theorem retired_of_plain {part : List (Event σ)} (hevents : q.events = part.reverse ++ p.events)
    (hservice : q.session.service = p.session.service) (hplain : ∀ e ∈ part, e.isPlain = true)
    (hdeeper : ∀ k, .entered k ∈ part → j < k) : Retired d j names p q part where
  events := hevents
  retires := by
    refine retires_of_quiet ?_ (by rw [hservice]) ?_ (lasting_of_no_calls hdeeper ?_)
    · rw [hservice]
      exact .refl _
    · rw [List.filterMap_eq_nil_iff]
      exact fun e he => demotion?_of_isPlain (hplain e he)
    · intro t k c hcall
      cases hplain _ hcall

theorem retired_delegating (p : Pass σ) : Retired d j names p p.delegating [] where
  events := rfl
  retires := retires_nil (Service.evolves_delegated _) rfl

theorem retired_calling {t : Transformer σ} {c : Class} (ht : t.name ∈ names)
    (hj : p.guard.depth = j)
    (hold : t.name ∈ p.session.service.demoted → 1 ≤ j ∧ j < d) :
    Retired d j names p (p.ready.calling t c) [.calling t.name j c] where
  events := by simp [Guard.clear, hj]
  retires := retires_of_quiet (.refl _) rfl rfl (lasting_calling ht hold)

theorem retired_settled {t : Transformer σ} (d j : Nat) (names : List String)
    (hnew : p.guard.raised = true → t.name ∉ p.session.service.demoted) :
    ∃ part, Retired d j names p (p.settled t) part ∧
      part.filterMap Event.demotion? ⊆ [t.name] := by
  unfold settled
  split
  · next hraised =>
      exact ⟨[.demoted t.name], ⟨rfl, retires_demote (hnew hraised)⟩, List.Subset.refl _⟩
  · exact ⟨[], ⟨rfl, retires_nil (.refl _) rfl⟩, List.nil_subset _⟩

/-- Seen from outside, a pass calls nobody who was demoted. -/
theorem retired_pass {memory : σ} {part : List (Event σ)}
    (h : Retired d (p.guard.depth + 1) names (p.remember memory).enter.delegating q part)
    (hnew : ∀ n ∈ names, n ∉ p.session.service.demoted) :
    ∃ whole, Retired d p.guard.depth [] p q.exit whole := by
  have hentered : Retired d p.guard.depth [] p (p.remember memory).enter
      [.entered p.guard.push.depth] :=
    retired_of_plain rfl rfl (by simp [Event.isPlain]) (by simp [Guard.push])
  have hran : Retired d p.guard.depth [] (p.remember memory).enter.delegating q part :=
    ⟨h.events, h.retires.outside hnew⟩
  have hleft : Retired d p.guard.depth [] q q.exit [.left q.guard.leave.depth] :=
    retired_of_plain rfl rfl (by simp [Event.isPlain]) (by simp)
  exact ⟨_, ((hentered.trans (retired_delegating _)).trans hran).trans hleft⟩

/-- A transformer is called, and settled after the call: it is demoted only in a pass that is
as deep as it may be, and not for the second time. -/
theorem retired_call {t : Transformer σ} {c : Class} {part : List (Event σ)}
    (others : List String) (hj : p.guard.depth = j) (hpos : 1 ≤ j) (hle : j ≤ d)
    (hnew : j = d → t.name ∉ p.session.service.demoted)
    (h : Retired d j [] (p.ready.calling t c) q part)
    (hquiet : j = d → part.filterMap Event.demotion? = [])
    (hlowered : j < d → q.guard.raised = false) :
    ∃ whole, Retired d j (t.name :: others) p ((q.called t).settled t) whole ∧
      (j = d → ∀ u ∈ ((q.called t).settled t).session.service.demoted,
        u ∈ p.session.service.demoted ∨ u = t.name) := by
  have hcalled : Retired d j (t.name :: others) q (q.called t) [.called t.name q.guard.depth] :=
    retired_of_plain rfl rfl (by simp [Event.isPlain]) (by simp)
  have hsame : j = d → q.session.service.demoted = p.session.service.demoted := by
    intro hdeepest
    rw [h.retires.demoted_eq, hquiet hdeepest, List.append_nil]
    rfl
  have hsettled : (q.called t).guard.raised = true →
      t.name ∉ (q.called t).session.service.demoted := by
    intro hraised
    have hdeepest : j = d := by
      by_contra hother
      rw [called_guard, hlowered (by omega)] at hraised
      cases hraised
    rw [called_session, hsame hdeepest]
    exact hnew hdeepest
  obtain ⟨verdict, hverdict, hmine⟩ := retired_settled d j (t.name :: others) hsettled
  have hold : t.name ∈ p.session.service.demoted → 1 ≤ j ∧ j < d := by
    intro hdemoted
    refine ⟨hpos, Nat.lt_of_le_of_ne hle ?_⟩
    intro hdeepest
    exact hnew hdeepest hdemoted
  have hinner : Retired d j (t.name :: others) (p.ready.calling t c) q part :=
    ⟨h.events, h.retires.mono (List.nil_subset _)⟩
  have hstarted := (retired_calling List.mem_cons_self hj hold).trans hinner
  refine ⟨_, (hstarted.trans hcalled).trans hverdict, ?_⟩
  intro hdeepest u hu
  rw [hverdict.retires.demoted_eq, called_session, hsame hdeepest] at hu
  rcases List.mem_append.mp hu with hu | hu
  · exact Or.inl hu
  · exact Or.inr (List.mem_singleton.mp (hmine hu))

/-- Passes may nest `d` deep, and they work for a service that has come about from a new one,
whose transformers re-enter by loading only, and which excludes whoever was demoted. -/
structure Steady (d : Nat) (p : Pass σ) : Prop where
  maxDepth_eq : p.guard.maxDepth = d
  reachable : p.session.service.Reachable
  holdsOnly : p.session.service.HoldsOnly Transformer.Tame
  bars : p.session.service.BarsDemoted

theorem Steady.same (h : p.Steady d) (hdepth : q.guard.maxDepth = p.guard.maxDepth)
    (hservice : q.session.service = p.session.service) : q.Steady d where
  maxDepth_eq := hdepth.trans h.maxDepth_eq
  reachable := hservice ▸ h.reachable
  holdsOnly := hservice ▸ h.holdsOnly
  bars := hservice ▸ h.bars

theorem Steady.later (h : p.Steady d) (hdepth : q.guard.maxDepth = p.guard.maxDepth)
    {part : List (Event σ)} (hpart : Retired d j names p q part) : q.Steady d where
  maxDepth_eq := hdepth.trans h.maxDepth_eq
  reachable := h.reachable.evolves hpart.retires.evolves
  holdsOnly := h.holdsOnly.evolves hpart.retires.evolves
  bars := hpart.retires.bars h.bars

/-- A pass that starts has transformers of different names to run, and none was demoted. -/
theorem Steady.delegated (h : p.Steady d) (hdistinct : p.session.service.Distinct) :
    (p.session.service.delegated.1.map Transformer.name).Nodup ∧
      (∀ n ∈ p.session.service.delegated.1.map Transformer.name, n ∉ p.session.service.demoted) ∧
      ∀ t ∈ p.session.service.delegated.1, t.Tame := by
  obtain ⟨hsublist, -⟩ := h.reachable.delegated_admitted
  refine ⟨(hsublist.map _).nodup hdistinct, ?_, ?_⟩
  · exact fun n hn => h.bars.notMem_delegated h.reachable hn
  · exact fun t ht => h.holdsOnly t (Service.holds_of_mem_delegated ht)

/-- After a call, the transformers that are left to run are as different and as little demoted
as before. -/
theorem able_rest {t : Transformer σ} {ts : List (Transformer σ)} {options : WriterOptions}
    {context : Context} {bytes output : Bytes} {result result' : Applied}
    (hable : Job.Able d p (.transform options context (t :: ts) bytes result))
    (hdepth : (q.settled t).guard.depth = p.guard.depth)
    (hsame : p.guard.depth = d → ∀ u ∈ (q.settled t).session.service.demoted,
      u ∈ p.session.service.demoted ∨ u = t.name) :
    Job.Able d (q.settled t) (.transform options context ts output result') := by
  obtain ⟨hpos, hle, -, hfresh⟩ := hable
  refine ⟨by omega, by omega, raised_settled _ _, ?_⟩
  rw [hdepth]
  intro hdeepest
  obtain ⟨hnodup, hnone⟩ := hfresh hdeepest
  rw [List.map_cons, List.nodup_cons] at hnodup
  refine ⟨hnodup.2, ?_⟩
  intro u hu hdemoted
  rcases hsame hdeepest _ hdemoted with hold | hname
  · exact hnone u (List.mem_cons_of_mem t hu) hold
  · exact hnodup.1 (hname ▸ List.mem_map_of_mem hu)

/-- What every part of a load tells, where the transformers re-enter by loading only and have
names of their own. The induction is on the run; what it carries is that in a pass which is
as deep as it may be nobody was demoted whom the pass is yet to run. -/
theorem Runs.retired (h : Runs (Session.answerWith inner) job p q) (hsteady : p.Steady d)
    (hdistinct : q.session.service.Distinct)
    (hkeeps : job.Keeps fun request => request.isDirect = true) (hable : job.Able d p) :
    ∃ part, Retired d p.guard.depth job.runs p q part ∧ job.Quiet d p part := by
  have hserves := serves_direct inner
  induction h with
  | missing _ | exempt _ _ | finish =>
      exact ⟨[], retired_of_plain rfl rfl (by simp) (by simp), fun _ => rfl⟩
  | done => exact ⟨[], retired_of_plain rfl rfl (by simp) (by simp), trivial⟩
  | unreadable _ => exact ⟨[], retired_of_plain rfl rfl (by simp) (by simp), trivial⟩
  | @tooDeep name p f memory _ _ _ =>
      refine ⟨[.entered _, .left _], retired_of_plain rfl rfl ?_ ?_, fun _ => rfl⟩
      · simp [Event.isPlain]
      · simp [Guard.push]
  | @pass name p q f memory result hfind hopen hroom hrun ih =>
      obtain ⟨-, hflag⟩ := hable
      have hless : p.guard.depth + 1 ≤ d := by
        simpa [Guard.isOver, Guard.push, hsteady.maxDepth_eq] using hroom
      have hwhole := (Runs.pass hfind hopen hroom hrun).evolves_of_serves hserves
        hsteady.holdsOnly trivial
      obtain ⟨hnames, hnew, hinner⟩ := hsteady.delegated (hdistinct.of_evolves hwhole)
      have hentered : (p.remember memory).enter.Steady d := hsteady.same rfl rfl
      have hdelegating : Retired d 0 [] (p.remember memory).enter
          (p.remember memory).enter.delegating [] := retired_delegating _
      obtain ⟨part, hpart, -⟩ := ih (hentered.later rfl hdelegating) hdistinct hinner
        ⟨by simp [Guard.push], hless,
          by simpa [Guard.push, hflag hless, hsteady.maxDepth_eq] using hless,
          fun _ => ⟨hnames, fun t ht => hnew _ (List.mem_map_of_mem ht)⟩⟩
      obtain ⟨whole, hwhole⟩ := retired_pass (p := p) hpart hnew
      refine ⟨whole, hwhole, ?_⟩
      intro hdeepest
      omega
  | @load name resume result outcome p q r hload hrest ihload ihrest =>
      cases hkeeps with
      | load hresume =>
          have hdepth : q.guard.depth = p.guard.depth := hload.depth_eq
          have hfirst := hload.evolves_of_serves hserves hsteady.holdsOnly trivial
          have hsecond :=
            hrest.evolves_of_serves hserves (hsteady.holdsOnly.evolves hfirst) (hresume _)
          obtain ⟨part, hpart, hquiet⟩ :=
            ihload (hsteady.same rfl rfl) (hdistinct.of_evolves hsecond) trivial hable
          have hflag : q.guard.depth < d → q.guard.raised = false := by
            rw [hdepth]
            intro hless
            exact hload.lowered ⟨hable.2 hless, lt_of_lt_of_eq hless hsteady.maxDepth_eq.symm⟩
          have hasked : Retired d p.guard.depth [] p (p.asking name)
              [.loading name p.guard.depth p.session] :=
            retired_of_plain rfl rfl (by simp [Event.isPlain]) (by simp)
          have hboth := hasked.trans hpart
          obtain ⟨part', hpart', hquiet'⟩ := ihrest (hsteady.later hload.maxDepth_eq hboth)
            hdistinct (hresume _) ⟨Nat.le_trans (Nat.le_of_eq hdepth) hable.1, hflag⟩
          rw [hdepth] at hpart'
          refine ⟨_, hboth.trans hpart', ?_⟩
          intro hdeepest
          rw [List.filterMap_append, List.filterMap_append, hquiet hdeepest,
            hquiet' (hdepth.trans hdeepest)]
          rfl
  | @ask request resume reply s outcome p r hanswer hrest ih =>
      cases hkeeps with
      | ask hdirect hregister hresume =>
          obtain ⟨reply', s', hsome, hevolves⟩ := hserves _ p.session hdirect hregister
          rw [hanswer] at hsome
          cases hsome
          have hasked : Retired d p.guard.depth [] p (p.withSession s) [] :=
            ⟨rfl, retires_nil hevolves (demoted_of_isDirect hdirect hanswer)⟩
          obtain ⟨part, hpart, hquiet⟩ :=
            ih (hsteady.later rfl hasked) hdistinct (hresume _) hable
          exact ⟨part, hasked.trans hpart, hquiet⟩
  | fetch _ ih =>
      cases hkeeps with
      | fetch hresume => exact ih hsteady hdistinct (hresume _) hable
  | @store memory rest outcome p r hrest ih =>
      cases hkeeps with
      | store hresume =>
          obtain ⟨part, hpart, hquiet⟩ := ih (hsteady.same rfl rfl) hdistinct hresume hable
          have hstored : Retired d p.guard.depth [] p (p.remember memory) [] :=
            retired_of_plain rfl rfl (by simp) (by simp)
          exact ⟨part, hstored.trans hpart, hquiet⟩
  | @stop options context t ts bytes c outcome p q hbytes hcall hfinal ih =>
      obtain ⟨hpos, hle, -, hfresh⟩ := hable
      have hasks := (hkeeps t List.mem_cons_self).asksOnly context c
      have hsettled := evolves_settled (P := Transformer.Tame) (q.called t) t
      obtain ⟨part, hpart, hquiet⟩ := ih (hsteady.same rfl rfl) (hdistinct.of_evolves hsettled)
        hasks ⟨hle, fun _ => rfl⟩
      obtain ⟨whole, hwhole, -⟩ := retired_call (ts.map Transformer.name) rfl hpos hle
        (fun hdeepest => (hfresh hdeepest).2 t List.mem_cons_self) hpart hquiet
        fun hless => hcall.lowered ⟨rfl, lt_of_lt_of_eq hless hsteady.maxDepth_eq.symm⟩
      exact ⟨whole, hwhole, trivial⟩
  | @next options context t ts bytes output c outcome result p q r hbytes hcall hkeep hrest ihcall
      ihrest =>
      have hready := hable
      obtain ⟨hpos, hle, -, hfresh⟩ := hready
      have hasks := (hkeeps t List.mem_cons_self).asksOnly context c
      have hothers : ∀ u ∈ ts, u.Tame := fun u hu => hkeeps u (List.mem_cons_of_mem t hu)
      have hsettled := evolves_settled (P := Transformer.Tame) (q.called t) t
      have hfirst := (hcall.evolves_of_serves hserves hsteady.holdsOnly hasks).trans hsettled
      have hsecond := hrest.evolves_of_serves hserves (hsteady.holdsOnly.evolves hfirst) hothers
      obtain ⟨part, hpart, hquiet⟩ := ihcall (hsteady.same rfl rfl)
        ((hdistinct.of_evolves hsecond).of_evolves hsettled) hasks ⟨hle, fun _ => rfl⟩
      obtain ⟨whole, hwhole, hsame⟩ := retired_call (ts.map Transformer.name) rfl hpos hle
        (fun hdeepest => (hfresh hdeepest).2 t List.mem_cons_self) hpart hquiet
        fun hless => hcall.lowered ⟨rfl, lt_of_lt_of_eq hless hsteady.maxDepth_eq.symm⟩
      have hdepth := hcall.depth_after_call
      obtain ⟨part', hpart', -⟩ := ihrest (hsteady.later hcall.maxDepth_after_call hwhole)
        hdistinct hothers (able_rest hable hdepth hsame)
      rw [hdepth] at hpart'
      have hmore : Retired d p.guard.depth (t.name :: ts.map Transformer.name)
          ((q.called t).settled t) r part' :=
        ⟨hpart'.events, hpart'.retires.mono (List.subset_cons_self _ _)⟩
      exact ⟨_, hwhole.trans hmore, trivial⟩

end Rules

/-! ## Loads in a row -/

/-- Asks for a class, and tells what happened meanwhile. Raw bytes are given out without a
pass. -/
def traceOne (answer : Request σ → SessionM σ Reply) (name : String) (run : Bool)
    (s : Session σ) : Option (List (Event σ) × Session σ) :=
  if run then
    (load answer (s.service.config.reentranceDepth + 1) name (start s)).map fun (_, p) =>
      (p.log, p.session)
  else
    (Session.classBytes answer name false s).map fun (_, s') => ([], s')

/-- Asks for classes one after the other, and tells what happened meanwhile. -/
def trace (answer : Request σ → SessionM σ Reply) :
    List (String × Bool) → Session σ → Option (List (Event σ) × Session σ)
  | [], s => some ([], s)
  | (name, run) :: calls, s => do
    let (log, s') ← traceOne answer name run s
    let (more, s'') ← trace answer calls s'
    return (log ++ more, s'')

section Traces

variable {s : Session σ}

theorem exists_traceOne (inner : Request σ → SessionM σ Reply)
    (hreachable : s.service.Reachable) (hholds : s.service.HoldsOnly Transformer.Tame)
    (name : String) (run : Bool) :
    ∃ result log s', Session.classBytes (Session.answerWith inner) name run s = some (result, s') ∧
      traceOne (Session.answerWith inner) name run s = some (log, s') ∧
      s.service.Evolves Transformer.Tame s'.service ∧
      (s.service.BarsDemoted → s'.service.Distinct →
        Retires s.service.config.reentranceDepth 0 [] s.service s'.service log) := by
  cases run with
  | false =>
      refine ⟨_, [], { s with memory := _ }, rfl, rfl, .refl _, ?_⟩
      exact fun _ _ => retires_nil (.refl _) rfl
  | true =>
      obtain ⟨result, p, hrun, hload, hbytes⟩ :=
        exists_load (serves_direct inner) hreachable (fun t ht => hholds t (Or.inl ht)) name
      refine ⟨result, p.log, p.session, hbytes, ?_, ?_, ?_⟩
      · show (load _ _ name (start s)).map _ = _
        rw [hload _ (Nat.lt_succ_self _)]
        rfl
      · exact hrun.evolves_of_serves (serves_direct inner) hholds trivial
      · intro hbars hdistinct
        obtain ⟨part, hpart, -⟩ := hrun.retired ⟨rfl, hreachable, hholds, hbars⟩ hdistinct
          trivial ⟨Nat.zero_le _, fun _ => rfl⟩
        have hlog : p.log = part := by
          have hevents : p.events = part.reverse ++ [] := hpart.events
          simp [log, hevents]
        rw [hlog]
        exact hpart.retires

theorem exists_trace (inner : Request σ → SessionM σ Reply)
    (hreachable : s.service.Reachable) (hholds : s.service.HoldsOnly Transformer.Tame)
    (calls : List (String × Bool)) :
    ∃ results log s',
      (calls.mapM fun (name, run) => Session.classBytes (Session.answerWith inner) name run :
        SessionM σ _) s = some (results, s') ∧
      trace (Session.answerWith inner) calls s = some (log, s') ∧
      s.service.Evolves Transformer.Tame s'.service ∧
      (s.service.BarsDemoted → s'.service.Distinct →
        Retires s.service.config.reentranceDepth 0 [] s.service s'.service log) := by
  induction calls generalizing s with
  | nil => exact ⟨[], [], s, rfl, rfl, .refl _, fun _ _ => retires_nil (.refl _) rfl⟩
  | cons call calls ih =>
      obtain ⟨name, run⟩ := call
      obtain ⟨result, log, s', hbytes, htrace, hevolves, hretires⟩ :=
        exists_traceOne inner hreachable hholds name run
      obtain ⟨results, more, s'', hbytes', htrace', hevolves', hretires'⟩ :=
        ih (hreachable.evolves hevolves) (hholds.evolves hevolves)
      refine ⟨result :: results, log ++ more, s'', ?_, ?_, hevolves.trans hevolves', ?_⟩
      · rw [List.mapM_cons, bind_of_some hbytes, bind_of_some hbytes']
        rfl
      · simp [trace, htrace, htrace']
      · intro hbars hdistinct
        have hfirst := hretires hbars (hdistinct.of_evolves hevolves')
        have hsecond := hretires' (hfirst.bars hbars) hdistinct
        rw [hevolves.config_eq] at hsecond
        exact hfirst.trans hsecond

end Traces

/-- In a log of loads in a row: a transformer that is called after it was demoted is called by
a pass that had started before and is less than `d` deep. -/
def OnlyHeld (d : Nat) (log : List (Event σ)) : Prop :=
  ∀ before t mid k c after, log = before ++ .demoted t :: (mid ++ .calling t k c :: after) →
    1 ≤ k ∧ k < d ∧ .entered k ∉ mid

/-- Nobody is called after being demoted. -/
def Final (log : List (Event σ)) : Prop :=
  ∀ before t mid k c after, log ≠ before ++ .demoted t :: (mid ++ .calling t k c :: after)

theorem OnlyHeld.final {log : List (Event σ)} {d : Nat} (h : OnlyHeld d log) (hd : d ≤ 1) :
    Final log := by
  intro before t mid k c after hlog
  obtain ⟨hpos, hless, -⟩ := h before t mid k c after hlog
  omega

/-- What a demotion means for the loads that are under way and for those to come. The names of
the demoted transformers are noted in order, none of them twice. Whoever was demoted before
the loads is never called, and whoever is demoted meanwhile is called again only by passes
that had started before and are not as deep as passes may be. Where passes may not nest, nobody is. -/
theorem demotion_lasts {s : Session σ} (hreachable : s.service.Reachable)
    (htame : ∀ t ∈ s.service.registry, t.Tame) (hbars : s.service.BarsDemoted)
    (hnodup : s.service.demoted.Nodup) (inner : Request σ → SessionM σ Reply)
    (calls : List (String × Bool)) :
    let answer := Session.answerWith inner
    ∃ results log s',
      (calls.mapM fun (name, run) => Session.classBytes answer name run : SessionM σ _) s =
        some (results, s') ∧
      trace answer calls s = some (log, s') ∧
      (s'.service.Distinct →
        s'.service.demoted = s.service.demoted ++ log.filterMap Event.demotion? ∧
        s'.service.demoted.Nodup ∧
        (∀ t k c, .calling t k c ∈ log → t ∉ s.service.demoted) ∧
        OnlyHeld s.service.config.reentranceDepth log ∧
        (s.service.config.reentranceDepth ≤ 1 → Final log)) := by
  dsimp only
  obtain ⟨results, log, s', hbytes, htrace, -, hretires⟩ :=
    exists_trace inner hreachable (hreachable.holdsOnly htame) calls
  refine ⟨results, log, s', hbytes, htrace, ?_⟩
  intro hdistinct
  have h := hretires hbars hdistinct
  have honly : OnlyHeld s.service.config.reentranceDepth log := h.lasting.held
  refine ⟨h.demoted_eq, h.nodup hnodup, ?_, honly, honly.final⟩
  intro t k c hcall hold
  obtain ⟨-, himpossible, -⟩ := h.lasting.spared t k c hcall hold
  omega

/-- A transformer that loads a class when it is given another one. -/
def loadingOn (name trigger target : String) : Transformer Unit where
  name
  isDelegationExcluded := false
  remapper := none
  transform context c :=
    if context.name.dotted = trigger then .load target fun _ => .finish (.keep c)
    else .finish (.keep c)

theorem keeps_loadingOn (P : Request Unit → Prop) (name trigger target : String) :
    (loadingOn name trigger target).Keeps P := by
  refine .intro fun context c => ?_
  show (if context.name.dotted = trigger then _ else _ : Routine Unit).AsksOnly _ _
  split
  · exact .load fun _ => .finish _
  · exact .finish _

/-- A service where passes may nest two deep. For `A` the first transformer loads `B`, and for
`B` the second loads `C`, which is too deep. -/
def nesting : Session Unit where
  service := (Service.fresh { Config.default with reentranceDepth := 2 } {}).after
    [.addSource (.ofAnswers fun _ => .ok (some (Class.announcedBy 1))),
      .register (loadingOn "visitor" "A" "B"), .register (loadingOn "greedy" "B" "C")]
  memory := ()
  held := none

theorem keeps_nesting (P : Request Unit → Prop) :
    ∀ t ∈ nesting.service.registry, t.Keeps P := by
  intro t ht
  rcases List.mem_cons.mp ht with rfl | ht
  · exact keeps_loadingOn P _ _ _
  · rw [List.mem_singleton.mp ht]
    exact keeps_loadingOn P _ _ _

theorem demotion_lasts_nesting :
    nesting.service.Reachable ∧ (∀ t ∈ nesting.service.registry, t.Tame) ∧
      nesting.service.BarsDemoted ∧ nesting.service.demoted.Nodup ∧
      ∃ log, ∃ s' : Session Unit,
        trace (Session.answerWith fun _ => failure) [("A", true), ("A", true)] nesting =
          some (log, s') ∧
        s'.service.Distinct ∧ log.filterMap Event.demotion? = ["greedy"] ∧ OnlyHeld 2 log := by
  have hreachable : nesting.service.Reachable := ⟨_, _, _, rfl⟩
  have hbars : nesting.service.BarsDemoted := fun _ ht => nomatch ht
  have hnodup : nesting.service.demoted.Nodup := .nil
  obtain ⟨-, log, s', -, htrace, hlasts⟩ :=
    demotion_lasts hreachable (keeps_nesting _) hbars hnodup (fun _ => failure)
      [("A", true), ("A", true)]
  have hend : (trace (Session.answerWith fun _ => failure) [("A", true), ("A", true)] nesting).map
      (fun told => (told.2.service.registry.map Transformer.name, told.2.service.demoted)) =
        some (["visitor", "greedy"], ["greedy"]) := by
    decide +kernel
  rw [htrace, Option.map_some, Option.some_inj, Prod.mk.injEq] at hend
  have hdistinct : s'.service.Distinct := by
    unfold Service.Distinct
    rw [hend.1]
    decide
  obtain ⟨hdemoted, -, -, honly, -⟩ := hlasts hdistinct
  rw [hend.2] at hdemoted
  exact ⟨hreachable, keeps_nesting _, hbars, hnodup, log, s', htrace, hdistinct, hdemoted.symm,
    honly⟩

/-- The log of `t` from its first demotion on holds a call of it. -/
theorem not_final_of_any {log : List (Event σ)} {t : String}
    (h : ((log.dropWhile fun e => e.demotion? != some t).any fun e => e.isCallOf t) = true) :
    ¬ Final log := by
  intro hfinal
  cases hlater : log.dropWhile fun e => e.demotion? != some t with
  | nil =>
      rw [hlater] at h
      cases h
  | cons e rest =>
      have hsplit := List.takeWhile_append_dropWhile (p := fun e => e.demotion? != some t) (l := log)
      have hhead := List.head?_dropWhile_not (fun e : Event σ => e.demotion? != some t) log
      rw [hlater] at h hsplit hhead
      cases e with
      | demoted u =>
          obtain rfl : u = t := by simpa [Event.demotion?] using hhead
          obtain ⟨e, he, hcall⟩ := List.any_eq_true.mp h
          rcases List.mem_cons.mp he with rfl | he
          · cases hcall
          obtain ⟨mid, after, rfl⟩ := List.append_of_mem he
          cases e with
          | calling v k c =>
              obtain rfl : v = u := by simpa [Event.isCallOf] using hcall
              exact hfinal _ _ _ _ _ _ hsplit.symm
          | _ => cases hcall
      | _ => simp [Event.demotion?] at hhead

/-- A pass goes on with the list that it holds: `greedy`, which is demoted in the pass over `B`,
is called on `A` afterwards. -/
theorem nesting_not_final :
    nesting.service.demoted = [] ∧ nesting.service.Distinct ∧
      (∀ t ∈ nesting.service.registry, t.LoadsOnly) ∧
      ∃ log, ∃ s' : Session Unit,
        trace (Session.answerWith fun _ => failure) [("A", true)] nesting = some (log, s') ∧
        ¬ Final log := by
  have hcalled : (trace (Session.answerWith fun _ => failure) [("A", true)] nesting).map
      (fun told => (told.1.dropWhile fun e => e.demotion? != some "greedy").any
        fun e => e.isCallOf "greedy") = some true := by
    decide +kernel
  obtain ⟨⟨log, s'⟩, htrace, hlater⟩ := Option.map_eq_some_iff.mp hcalled
  exact ⟨rfl, by decide, keeps_nesting _, log, s', htrace, not_final_of_any hlater⟩

end Pass

end ClassLoom
