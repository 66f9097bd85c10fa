import ClassLoom.Proofs.ClassFileRoundTrip

/-!
# Class files cut short and class files with more behind them

A reading action looks at the bytes that it passes over and at nothing else. So a
failure other than running out of data cannot be cured by more data, and running
out at an offset cannot be noticed before the data reaches up to that offset.
`Local` is these facts about one action. They survive putting actions in a row,
because what the first one passes over is a prefix of what the row passes over, and
every part of a class file is read by such a row.

The end of the file is the one place where an action looks further: it wants
nothing to be left. It is therefore kept apart. `readRecord` reads a class and
leaves what follows alone, and only `decode` compares what follows with nothing.

Offsets are right as well as stable. A text that is none is reported at the place
where its bytes start, its length standing just in front of that place. That is no
consequence of locality, and `Sound` carries it along.
-/

namespace ClassLoom

namespace Wire

/-! ## Failing -/

section Failing

variable {ε α β : Type} {r : Reader} {e : ε}

/-- The action fails at this place, for this reason. -/
def Fails (act : EStateM ε Reader α) (r : Reader) (e : ε) : Prop :=
  ∃ s, act r = .error e s

theorem fails_bind {x : EStateM ε Reader α} {f : α → EStateM ε Reader β} :
    Fails (x >>= f) r e ↔ Fails x r e ∨ ∃ a t, x r = .ok a t ∧ Fails (f a) t e := by
  show (∃ s, EStateM.bind x f r = .error e s) ↔ _
  unfold Fails EStateM.bind
  cases x r with
  | ok a t => simp
  | error e' t => simp

theorem not_fails_pure {a : α} : ¬ Fails (pure a : EStateM ε Reader α) r e := by
  intro h
  obtain ⟨s, h⟩ := h
  cases h

theorem fails_throw {e' : ε} : Fails (throw e' : EStateM ε Reader α) r e ↔ e' = e := by
  constructor
  · intro h
    obtain ⟨s, h⟩ := h
    injection h
  · intro h
    subst h
    exact ⟨r, rfl⟩

theorem fails_take {n : Nat} {e : DecodeError} :
    Fails (take n) r e ↔ r.rest.length < n ∧ e = .unexpectedEnd r.position := by
  unfold Fails take
  by_cases h : (r.rest.take n).length = n
  · simp only [h, if_true]
    rw [List.length_take] at h
    simp
    omega
  · simp only [h, if_false]
    rw [List.length_take] at h
    constructor
    · intro hfails
      obtain ⟨s, hs⟩ := hfails
      injection hs with he
      exact ⟨by omega, he.symm⟩
    · intro hshort
      exact ⟨r, by rw [hshort.2]⟩

theorem not_fails_here {e : DecodeError} : ¬ Fails here r e := by
  intro h
  obtain ⟨s, h⟩ := h
  cases h

theorem fails_finish {e : DecodeError} :
    Fails finish r e ↔ r.rest ≠ [] ∧ e = .trailingBytes r.rest.length := by
  unfold Fails finish Reader.remaining
  cases r.rest with
  | nil => simp
  | cons b bs => simp [eq_comm]

end Failing

/-! ## Actions that see what they pass over -/

/-- What a prefix of the data holds from the second of two places on, if it reaches
that far. -/
theorem Between.cut {data p : Bytes} {r t : Reader} (h : Between data r t)
    (hp : p <+: r.rest) (hlen : data.length ≤ p.length) :
    ∃ q, q <+: t.rest ∧ p = data ++ q := by
  rw [h.1] at hp
  obtain ⟨q, rfl⟩ := List.prefix_of_prefix_length_le (List.prefix_append _ _) hp hlen
  exact ⟨q, (List.prefix_append_right_inj data).mp hp, rfl⟩

/-- The action looks at the bytes that it passes over and at no others. The way in
which it fails for want of data is marked by `wrap`. -/
structure Local {ε α : Type} (wrap : DecodeError → ε) (act : EStateM ε Reader α) :
    Prop where
  /-- What it gives depends on what it passes over. -/
  reads : ∀ {r r' a}, act r = .ok a r' → ∃ data, Between data r r' ∧
    ∀ {s s'}, s.position = r.position → Between data s s' → act s = .ok a s'
  /-- It runs out of data within the data, and in the same way on all data that
  agrees up to there. -/
  short : ∀ {r k}, Fails act r (wrap (.unexpectedEnd k)) →
    r.position ≤ k ∧ k ≤ r.position + r.rest.length ∧
      ∀ {p}, p <+: r.rest → k ≤ r.position + p.length →
        Fails act { r with rest := p } (wrap (.unexpectedEnd k))
  /-- No other failure is cured by more data. -/
  lasting : ∀ {r e}, Fails act r e → (∀ k, e ≠ wrap (.unexpectedEnd k)) →
    ∀ tail, Fails act { r with rest := r.rest ++ tail } e

section Locality

variable {ε α β : Type} {wrap : DecodeError → ε}

theorem local_pure (a : α) : Local wrap (pure a) where
  reads := by
    intro r r' b h
    obtain ⟨rfl, rfl⟩ := pure_eq_ok.mp h
    refine ⟨[], between_nil.mpr rfl, ?_⟩
    intro s s' _ hbetween
    exact pure_eq_ok.mpr ⟨rfl, between_nil.mp hbetween⟩
  short := fun h => absurd h not_fails_pure
  lasting := fun h => absurd h not_fails_pure

theorem local_throw {e : ε} (he : ∀ k, e ≠ wrap (.unexpectedEnd k)) :
    Local wrap (throw e : EStateM ε Reader α) where
  reads := fun h => absurd h throw_ne_ok
  short := fun h => absurd (fails_throw.mp h) (he _)
  lasting := by
    intro r e' h _ tail
    exact fails_throw.mpr (fails_throw.mp h)

theorem local_take (n : Nat) : Local id (take n) where
  reads := by
    intro r r' data h
    obtain ⟨hlen, hbetween⟩ := take_eq_ok.mp h
    exact ⟨data, hbetween, fun _ hs => take_eq_ok.mpr ⟨hlen, hs⟩⟩
  short := by
    intro r k h
    obtain ⟨hshort, hk⟩ := fails_take.mp h
    injection hk with hk
    subst hk
    refine ⟨Nat.le_refl _, Nat.le_add_right _ _, ?_⟩
    intro p hp _
    exact fails_take.mpr ⟨Nat.lt_of_le_of_lt hp.length_le hshort, rfl⟩
  lasting := by
    intro r e h hlasting
    exact absurd (fails_take.mp h).2 (hlasting _)

theorem local_here : Local id here where
  reads := by
    intro r r' n h
    obtain ⟨rfl, rfl⟩ := here_eq_ok.mp h
    refine ⟨[], between_nil.mpr rfl, ?_⟩
    intro s s' hpos hbetween
    exact here_eq_ok.mpr ⟨hpos, between_nil.mp hbetween⟩
  short := fun h => absurd h not_fails_here
  lasting := fun h => absurd h not_fails_here

/-- The second action starts where the first one stopped, so cutting or extending
the data of the row is cutting or extending what the second one finds. -/
theorem Local.bind {x : EStateM ε Reader α} {f : α → EStateM ε Reader β}
    (hx : Local wrap x) (hf : ∀ a, Local wrap (f a)) : Local wrap (x >>= f) where
  reads := by
    intro r r' b h
    obtain ⟨a, t, hxr, hft⟩ := bind_eq_ok.mp h
    obtain ⟨front, hfront, hxs⟩ := hx.reads hxr
    obtain ⟨back, hback, hfs⟩ := (hf a).reads hft
    refine ⟨front ++ back, between_append.mpr ⟨t, hfront, hback⟩, ?_⟩
    intro s s' hpos hbetween
    obtain ⟨u, hsu, hus⟩ := between_append.mp hbetween
    have hu : u.position = t.position := by
      rw [hsu.2, hfront.2, hpos]
    exact bind_eq_ok.mpr ⟨a, u, hxs hpos hsu, hfs hu hus⟩
  short := by
    intro r k h
    rcases fails_bind.mp h with hfirst | ⟨a, t, hxr, hsecond⟩
    · obtain ⟨hlow, hhigh, hcut⟩ := hx.short hfirst
      exact ⟨hlow, hhigh, fun hp hk => fails_bind.mpr (.inl (hcut hp hk))⟩
    · obtain ⟨data, hbetween, hxs⟩ := hx.reads hxr
      -- the data runs out behind what `x` passes over, so no cut gets into that
      obtain ⟨hlow, hhigh, hcut⟩ := (hf a).short hsecond
      have hpos := hbetween.2
      have hlen : r.rest.length = data.length + t.rest.length := by
        rw [hbetween.1, List.length_append]
      refine ⟨by omega, by omega, ?_⟩
      intro p hp hk
      obtain ⟨q, hq, rfl⟩ := hbetween.cut hp (by omega)
      rw [List.length_append] at hk
      have hfirst : x { r with rest := data ++ q } = .ok a { t with rest := q } :=
        hxs rfl ⟨rfl, hpos⟩
      exact fails_bind.mpr (.inr ⟨a, _, hfirst, hcut hq (by omega)⟩)
  lasting := by
    intro r e h he tail
    rcases fails_bind.mp h with hfirst | ⟨a, t, hxr, hsecond⟩
    · exact fails_bind.mpr (.inl (hx.lasting hfirst he tail))
    · obtain ⟨data, hbetween, hxs⟩ := hx.reads hxr
      have hfirst : x { r with rest := r.rest ++ tail }
          = .ok a { t with rest := t.rest ++ tail } :=
        hxs rfl ⟨by simp [hbetween.1], hbetween.2⟩
      exact fails_bind.mpr (.inr ⟨a, _, hfirst, (hf a).lasting hsecond he tail⟩)

end Locality

/-! ## Actions that blame the right bytes -/

/-- From offset `k` on stand bytes that are no text, with their number in front. -/
def NoText (r : Reader) (k : Nat) : Prop :=
  ∃ front payload back, r.rest = front ++ digits 2 payload.length ++ payload ++ back ∧
    k = r.position + front.length + 2 ∧ payload.length < UInt16.size ∧
      ofUtf8? payload = none

theorem NoText.before {data : Bytes} {r t : Reader} {k : Nat}
    (h : NoText t k) (hbetween : Between data r t) : NoText r k := by
  obtain ⟨front, payload, back, hrest, hk, hlen, hnone⟩ := h
  refine ⟨data ++ front, payload, back, ?_, ?_, hlen, hnone⟩
  · rw [hbetween.1, hrest]
    simp
  · rw [hk, hbetween.2, List.length_append]
    omega

/-- A local action that is right about the texts that it refuses, and that never
minds what follows. -/
structure Sound {ε α : Type} (wrap : DecodeError → ε) (act : EStateM ε Reader α) :
    Prop extends Local wrap act where
  text : ∀ {r k}, Fails act r (wrap (.invalidUtf8 k)) → NoText r k
  content : ∀ {r n}, ¬ Fails act r (wrap (.trailingBytes n))

section Soundness

variable {ε α β : Type} {wrap : DecodeError → ε}

theorem sound_pure (a : α) : Sound wrap (pure a) where
  toLocal := local_pure a
  text := fun h => absurd h not_fails_pure
  content := not_fails_pure

theorem sound_throw {e : ε} (he : ∀ cause, e ≠ wrap cause) :
    Sound wrap (throw e : EStateM ε Reader α) where
  toLocal := local_throw fun _ => he _
  text := fun h => absurd (fails_throw.mp h) (he _)
  content := fun h => he _ (fails_throw.mp h)

theorem sound_take (n : Nat) : Sound id (take n) where
  toLocal := local_take n
  text := by
    intro r k h
    cases (fails_take.mp h).2
  content := by
    intro r n h
    cases (fails_take.mp h).2

theorem Sound.bind {x : EStateM ε Reader α} {f : α → EStateM ε Reader β}
    (hx : Sound wrap x) (hf : ∀ a, Sound wrap (f a)) : Sound wrap (x >>= f) where
  toLocal := hx.toLocal.bind fun a => (hf a).toLocal
  text := by
    intro r k h
    rcases fails_bind.mp h with hfirst | ⟨a, t, hxr, hsecond⟩
    · exact hx.text hfirst
    · obtain ⟨data, hbetween, _⟩ := hx.reads hxr
      exact ((hf a).text hsecond).before hbetween
  content := by
    intro r n h
    rcases fails_bind.mp h with hfirst | ⟨a, t, _, hsecond⟩
    · exact hx.content hfirst
    · exact (hf a).content hsecond

theorem sound_readU8 : Sound id readU8 :=
  (sound_take 1).bind fun _ => sound_pure _

theorem sound_readU16 : Sound id readU16 :=
  (sound_take 2).bind fun _ => sound_pure _

theorem sound_readU32 : Sound id readU32 :=
  (sound_take 4).bind fun _ => sound_pure _

theorem sound_readBlob : Sound id readBlob :=
  sound_readU32.bind fun _ => sound_take _

theorem local_readStr : Local id readStr := by
  refine sound_readU16.toLocal.bind fun length => local_here.bind fun start => ?_
  refine (local_take _).bind fun payload => ?_
  cases ofUtf8? payload with
  | some text => exact local_pure text
  | none => exact local_throw (by simp)

/-- The length was read just before the offset that is reported, and the payload is
what the length counts. -/
theorem fails_readStr {r : Reader} {e : DecodeError} (h : Fails readStr r e) :
    (∃ k, e = .unexpectedEnd k) ∨ ∃ k, e = .invalidUtf8 k ∧ NoText r k := by
  rcases fails_bind.mp h with hlength | ⟨length, t, hlength, h⟩
  · rcases fails_bind.mp hlength with htake | ⟨_, _, _, hpure⟩
    · exact .inl ⟨_, (fails_take.mp htake).2⟩
    · exact absurd hpure not_fails_pure
  rcases fails_bind.mp h with hhere | ⟨start, t', hhere, h⟩
  · exact absurd hhere not_fails_here
  obtain ⟨rfl, rfl⟩ := here_eq_ok.mp hhere
  rcases fails_bind.mp h with htake | ⟨payload, t', htake, h⟩
  · exact .inl ⟨_, (fails_take.mp htake).2⟩
  cases htext : ofUtf8? payload with
  | some text =>
      rw [htext] at h
      exact absurd h not_fails_pure
  | none =>
      rw [htext] at h
      obtain ⟨hpayload, hrest, _⟩ := take_eq_ok.mp htake
      obtain ⟨written, hwritten, hbetween⟩ := spans_single.mp (readU16_eq_ok.mp hlength)
      injection hwritten with hwritten
      refine .inr ⟨t.position, (fails_throw.mp h).symm, [], payload, t'.rest, ?_, ?_, ?_,
        htext⟩
      · rw [hbetween.1, hrest, ← hwritten, hpayload]
        simp
      · rw [hbetween.2, ← hwritten, length_digits, List.length_nil, Nat.add_zero]
      · rw [hpayload]
        exact length.toNat_lt

theorem sound_readStr : Sound id readStr where
  toLocal := local_readStr
  text := by
    intro r k h
    rcases fails_readStr h with ⟨k', he⟩ | ⟨k', he, hnone⟩
    · cases he
    · cases he
      exact hnone
  content := by
    intro r n h
    rcases fails_readStr h with ⟨k', he⟩ | ⟨k', he, _⟩
    · cases he
    · cases he

theorem sound_readTable {item : Read α} (hitem : Sound id item) :
    Sound id (readTable item) := by
  refine sound_readU16.bind fun count => ?_
  induction count.toNat with
  | zero => exact sound_pure []
  | succ n ih =>
      rw [List.replicate_succ, List.mapM_cons]
      exact hitem.bind fun _ => ih.bind fun _ => sound_pure _

end Soundness

end Wire

open Wire

/-! ## The parts of a class -/

theorem Attribute.sound_read : Sound id Attribute.read :=
  sound_readStr.bind fun _ => sound_readBlob.bind fun _ => sound_pure _

theorem Field.sound_read : Sound id Field.read := by
  refine sound_readU16.bind fun access => ?_
  refine sound_readStr.bind fun name => sound_readStr.bind fun descriptor => ?_
  exact (sound_readTable Attribute.sound_read).bind fun _ => sound_pure _

theorem Method.sound_read : Sound id Method.read := by
  refine sound_readU16.bind fun access => ?_
  refine sound_readStr.bind fun name => sound_readStr.bind fun descriptor => ?_
  refine sound_readU16.bind fun maxStack => sound_readU16.bind fun maxLocals => ?_
  refine sound_readBlob.bind fun code => ?_
  exact (sound_readTable Attribute.sound_read).bind fun _ => sound_pure _

theorem sound_readSuper : Sound id readSuper := by
  refine sound_readU8.bind fun flag => ?_
  split
  · exact sound_pure none
  · exact sound_readStr.bind fun _ => sound_pure _

namespace Class

theorem sound_readBody (minor major : UInt16) : Sound id (readBody minor major) := by
  refine sound_readU16.bind fun access => sound_readStr.bind fun name => ?_
  refine sound_readSuper.bind fun superName => ?_
  refine (sound_readTable sound_readStr).bind fun interfaces => ?_
  refine (sound_readTable Field.sound_read).bind fun fields => ?_
  refine (sound_readTable Method.sound_read).bind fun methods => ?_
  exact (sound_readTable Attribute.sound_read).bind fun _ => sound_pure _

theorem fails_lift {α : Type} {action : Read α} {r : Reader} {e : ClassFileError} :
    Fails (action : ReadClass α) r e ↔ ∃ cause, Fails action r cause ∧ e = .malformed cause := by
  show (∃ s, EStateM.adaptExcept ClassFileError.malformed action r = .error e s) ↔ _
  unfold Fails EStateM.adaptExcept
  cases action r with
  | ok a t => simp
  | error cause t => simp [eq_comm]

theorem fails_lift_malformed {α : Type} {action : Read α} {r : Reader} {cause : DecodeError} :
    Fails (action : ReadClass α) r (.malformed cause) ↔ Fails action r cause := by
  simp [fails_lift]

theorem sound_lift {α : Type} {action : Read α} (h : Sound id action) :
    Sound ClassFileError.malformed (action : ReadClass α) where
  reads := by
    intro r r' a hr
    obtain ⟨data, hbetween, hsame⟩ := h.reads (lift_eq_ok.mp hr)
    exact ⟨data, hbetween, fun hpos hs => lift_eq_ok.mpr (hsame hpos hs)⟩
  short := by
    intro r k hr
    obtain ⟨hlow, hhigh, hcut⟩ := h.short (fails_lift_malformed.mp hr)
    exact ⟨hlow, hhigh, fun hp hk => fails_lift_malformed.mpr (hcut hp hk)⟩
  lasting := by
    intro r e hr he tail
    obtain ⟨cause, hcause, rfl⟩ := fails_lift.mp hr
    have hne : ∀ k, cause ≠ .unexpectedEnd k := by
      intro k hk
      exact he k (by rw [hk])
    exact fails_lift_malformed.mpr (h.lasting hcause hne tail)
  text := fun hr => h.text (fails_lift_malformed.mp hr)
  content := fun hr => h.content (fails_lift_malformed.mp hr)

theorem sound_readHeader : Sound ClassFileError.malformed readHeader := by
  refine (sound_lift sound_readU32).bind fun found => ?_
  split
  · exact sound_throw (by simp)
  · refine (sound_lift sound_readU16).bind fun minor => ?_
    refine (sound_lift sound_readU16).bind fun major => ?_
    dsimp only
    split
    · exact sound_throw (by simp)
    · exact sound_pure _

/-! ## The end of the file -/

/-- Reads a class and leaves alone what follows. -/
def readRecord : ReadClass Class := do
  let (minor, major) ← readHeader
  readBody minor major

theorem sound_readRecord : Sound ClassFileError.malformed readRecord :=
  sound_readHeader.bind fun _ => sound_lift (sound_readBody _ _)

theorem read_eq_readRecord :
    Class.read = readRecord >>= fun c => (finish : ReadClass Unit) >>= fun _ => pure c := by
  unfold Class.read readRecord
  rw [bind_assoc]

theorem decode_eq_ok_readRecord {b : Bytes} {c : Class} :
    decode b = .ok c ↔ ∃ r, readRecord (Reader.start b) = .ok c r ∧ r.rest = [] := by
  have hdecode : decode b = .ok c ↔ ∃ r, Class.read (Reader.start b) = .ok c r := by
    unfold decode
    cases Class.read (Reader.start b) with
    | ok c' r => simp
    | error e r => simp
  simp only [hdecode, read_eq_readRecord, bind_eq_ok, lift_eq_ok, pure_eq_ok]
  constructor
  · intro h
    obtain ⟨_, c', r, hrecord, _, _, hfinish, rfl, rfl⟩ := h
    obtain ⟨hempty, rfl⟩ := finish_eq_ok.mp hfinish
    exact ⟨r, hrecord, hempty⟩
  · intro h
    obtain ⟨r, hrecord, hempty⟩ := h
    exact ⟨r, c, r, hrecord, (), r, finish_eq_ok.mpr ⟨hempty, rfl⟩, rfl, rfl⟩

theorem decode_eq_error_readRecord {b : Bytes} {e : ClassFileError} :
    decode b = .error e ↔ Fails readRecord (Reader.start b) e ∨
      ∃ c r, readRecord (Reader.start b) = .ok c r ∧ r.rest ≠ [] ∧
        e = .malformed (.trailingBytes r.rest.length) := by
  have hdecode : decode b = .error e ↔ Fails Class.read (Reader.start b) e := by
    unfold decode Fails
    cases Class.read (Reader.start b) with
    | ok c r => simp
    | error e' r => simp
  have hend : ∀ {c : Class} {r : Reader},
      Fails ((finish : ReadClass Unit) >>= fun _ => (pure c : ReadClass Class)) r e ↔
        r.rest ≠ [] ∧ e = .malformed (.trailingBytes r.rest.length) := by
    intro c r
    rw [fails_bind]
    simp only [not_fails_pure, and_false, exists_false, or_false, fails_lift, fails_finish]
    constructor
    · intro h
      obtain ⟨_, ⟨hrest, rfl⟩, he⟩ := h
      exact ⟨hrest, he⟩
    · intro h
      exact ⟨_, ⟨h.1, rfl⟩, h.2⟩
  rw [hdecode, read_eq_readRecord, fails_bind]
  simp only [hend]

theorem readRecord_append {p : Bytes} {c : Class} (h : decode p = .ok c) (tail : Bytes) :
    readRecord (Reader.start (p ++ tail)) = .ok c ⟨p.length, tail⟩ := by
  obtain ⟨r, hrecord, hempty⟩ := decode_eq_ok_readRecord.mp h
  obtain ⟨data, hbetween, hsame⟩ := sound_readRecord.reads hrecord
  have hdata : p = data := by
    have hrest := hbetween.1
    rwa [hempty, List.append_nil] at hrest
  subst hdata
  exact hsame rfl ⟨rfl, (Nat.zero_add _).symm⟩

theorem readRecord_eq_ok {b : Bytes} {c : Class} {r : Reader}
    (h : readRecord (Reader.start b) = .ok c r) :
    ∃ p, b = p ++ r.rest ∧ decode p = .ok c := by
  obtain ⟨data, hbetween, hsame⟩ := sound_readRecord.reads h
  refine ⟨data, hbetween.1, decode_eq_ok_readRecord.mpr ⟨⟨data.length, []⟩, ?_, rfl⟩⟩
  exact hsame rfl ⟨(List.append_nil data).symm, (Nat.zero_add _).symm⟩

/-! ## Cutting and extending -/

section Prefixes

variable {b p tail : Bytes} {c d : Class} {e : ClassFileError} {k n : Nat}

/-- No class file goes on as another one. -/
theorem eq_nil_of_decode_append (hp : decode p = .ok c) (hb : decode (p ++ tail) = .ok d) :
    tail = [] := by
  obtain ⟨r, hrecord, hempty⟩ := decode_eq_ok_readRecord.mp hb
  rw [readRecord_append hp tail] at hrecord
  injection hrecord with _ hr
  rw [← hempty, ← hr]

theorem decode_eq_trailingBytes :
    decode b = .error (.malformed (.trailingBytes n)) ↔
      ∃ p tail c, b = p ++ tail ∧ tail.length = n ∧ tail ≠ [] ∧ decode p = .ok c := by
  rw [decode_eq_error_readRecord, or_iff_right sound_readRecord.content]
  constructor
  · intro h
    obtain ⟨c, r, hrecord, hrest, he⟩ := h
    injection he with he
    injection he with hn
    obtain ⟨p, hb, hp⟩ := readRecord_eq_ok hrecord
    exact ⟨p, r.rest, c, hb, hn.symm, hrest, hp⟩
  · intro h
    obtain ⟨p, tail, c, rfl, rfl, hne, hp⟩ := h
    exact ⟨c, _, readRecord_append hp tail, hne, rfl⟩

/-- A failure that is no want of data stays, unless it is that data is left. -/
theorem decode_append_of_error (h : decode b = .error e)
    (hshort : ∀ k, e ≠ .malformed (.unexpectedEnd k))
    (hlong : ∀ n, e ≠ .malformed (.trailingBytes n)) (tail : Bytes) :
    decode (b ++ tail) = .error e := by
  rcases decode_eq_error_readRecord.mp h with hfails | ⟨_, _, _, _, he⟩
  · exact decode_eq_error_readRecord.mpr (.inl (sound_readRecord.lasting hfails hshort tail))
  · exact absurd he (hlong _)

theorem decode_cut_of_unexpectedEnd (h : decode b = .error (.malformed (.unexpectedEnd k))) :
    k ≤ b.length ∧ ∀ {p}, p <+: b → k ≤ p.length →
      decode p = .error (.malformed (.unexpectedEnd k)) := by
  rcases decode_eq_error_readRecord.mp h with hfails | ⟨_, _, _, _, he⟩
  · obtain ⟨_, hhigh, hcut⟩ := sound_readRecord.short hfails
    have hzero : (Reader.start b).position = 0 := rfl
    rw [hzero, Nat.zero_add] at hhigh
    refine ⟨hhigh, ?_⟩
    intro p hp hk
    refine decode_eq_error_readRecord.mpr (.inl (hcut hp ?_))
    rwa [hzero, Nat.zero_add]
  · cases he

/-- A class file that was cut short lacks data, and fails in no other way. -/
theorem decode_cut (hb : decode (p ++ tail) = .ok c) (hne : tail ≠ []) :
    ∃ k, k ≤ p.length ∧ decode p = .error (.malformed (.unexpectedEnd k)) := by
  cases hp : decode p with
  | ok d => exact absurd (eq_nil_of_decode_append hp hb) hne
  | error e =>
      by_cases hshort : ∃ k, e = .malformed (.unexpectedEnd k)
      · obtain ⟨k, rfl⟩ := hshort
        exact ⟨k, (decode_cut_of_unexpectedEnd hp).1, rfl⟩
      by_cases hlong : ∃ n, e = .malformed (.trailingBytes n)
      · obtain ⟨n, rfl⟩ := hlong
        obtain ⟨q, more, d, rfl, _, hmore, hq⟩ := decode_eq_trailingBytes.mp hp
        rw [List.append_assoc] at hb
        have hnil := eq_nil_of_decode_append hq hb
        exact absurd (List.append_eq_nil_iff.mp hnil).1 hmore
      · have hsame := decode_append_of_error hp (not_exists.mp hshort)
          (not_exists.mp hlong) tail
        rw [hb] at hsame
        cases hsame

/-- The length of a text that is none stands in front of it, as the bytes of the text
that it counts are there. -/
theorem noText_of_decode (h : decode b = .error (.malformed (.invalidUtf8 k))) :
    2 ≤ k ∧ ∃ length, ofDigits ((b.drop (k - 2)).take 2) = length ∧
      k + length ≤ b.length ∧ ∀ text, utf8 text ≠ (b.drop k).take length := by
  rcases decode_eq_error_readRecord.mp h with hfails | ⟨_, _, _, _, he⟩
  · obtain ⟨front, payload, back, hrest, hk, hlen, hnone⟩ := sound_readRecord.text hfails
    have hb : b = front ++ (digits 2 payload.length ++ (payload ++ back)) := by
      rw [← List.append_assoc, ← List.append_assoc]
      exact hrest
    have hk : k = front.length + 2 := by
      rw [hk]
      exact congrArg (· + 2) (Nat.zero_add _)
    have hat : b.drop (k - 2) = digits 2 payload.length ++ (payload ++ back) := by
      rw [hb, hk, Nat.add_sub_cancel, List.drop_left]
    have hafter : b.drop k = payload ++ back := by
      rw [hb, ← List.append_assoc]
      exact List.drop_left' (by rw [List.length_append, length_digits, hk])
    refine ⟨by omega, payload.length, ?_, ?_, ?_⟩
    · rw [hat, List.take_left' (length_digits _ _), ofDigits_digits]
      exact Nat.mod_eq_of_lt hlen
    · rw [hb, hk]
      simp
      omega
    · intro text htext
      rw [hafter, List.take_left] at htext
      rw [ofUtf8?_eq_some_iff.mpr htext] at hnone
      cases hnone
  · cases he

/-- Class files are prefix-free, and what is wrong with other data is wrong with all
data that agrees with it as far as the fault. -/
theorem decode_prefix_free (b : Bytes) :
    (∀ c, decode b = .ok c → ∀ p, p <+: b → p ≠ b →
      ∃ k, k ≤ p.length ∧ decode p = .error (.malformed (.unexpectedEnd k))) ∧
    (∀ n, decode b = .error (.malformed (.trailingBytes n)) ↔
      0 < n ∧ n ≤ b.length ∧ ∃ c, decode (b.take (b.length - n)) = .ok c) ∧
    (∀ p q c d, p <+: b → q <+: b → decode p = .ok c → decode q = .ok d → p = q) ∧
    (∀ e, decode b = .error e →
      (∃ found, e = .invalidMagic found) ∨ (∃ major minor, e = .unsupportedVersion major minor) ∨
        (∃ k, e = .malformed (.invalidUtf8 k)) →
      ∀ tail, decode (b ++ tail) = .error e) ∧
    (∀ k, decode b = .error (.malformed (.invalidUtf8 k)) →
      2 ≤ k ∧ ∃ length, ofDigits ((b.drop (k - 2)).take 2) = length ∧
        k + length ≤ b.length ∧ ∀ text, utf8 text ≠ (b.drop k).take length) ∧
    (∀ k, decode b = .error (.malformed (.unexpectedEnd k)) →
      k ≤ b.length ∧ ∀ p, p <+: b → k ≤ p.length →
        decode p = .error (.malformed (.unexpectedEnd k))) := by
  refine ⟨?_, ?_, ?_, ?_, fun k h => noText_of_decode h, ?_⟩
  · intro c hb p hp hne
    obtain ⟨tail, rfl⟩ := hp
    refine decode_cut hb ?_
    intro hnil
    exact hne (by rw [hnil, List.append_nil])
  · intro n
    rw [decode_eq_trailingBytes]
    constructor
    · intro h
      obtain ⟨p, tail, c, rfl, rfl, hne, hp⟩ := h
      refine ⟨List.length_pos_iff.mpr hne, by simp, c, ?_⟩
      rwa [List.length_append, Nat.add_sub_cancel, List.take_left]
    · intro h
      obtain ⟨hpos, hle, c, hp⟩ := h
      have hlen : (b.drop (b.length - n)).length = n := by
        rw [List.length_drop]
        omega
      refine ⟨_, _, c, (List.take_append_drop (b.length - n) b).symm, hlen, ?_, hp⟩
      intro hnil
      rw [hnil] at hlen
      exact Nat.ne_of_gt hpos hlen.symm
  · intro p q c d hp hq hpc hqd
    rcases List.prefix_or_prefix_of_prefix hp hq with ⟨tail, rfl⟩ | ⟨tail, rfl⟩
    · rw [eq_nil_of_decode_append hpc hqd, List.append_nil]
    · rw [eq_nil_of_decode_append hqd hpc, List.append_nil]
  · intro e h hkind
    refine decode_append_of_error h ?_ ?_
    · intro k hk
      subst hk
      simp at hkind
    · intro n hn
      subst hn
      simp at hkind
  · intro k h
    obtain ⟨hle, hcut⟩ := decode_cut_of_unexpectedEnd h
    exact ⟨hle, fun p hp hk => hcut hp hk⟩

/-- A class file that names its class by a byte that no text has. -/
def unnamed : Bytes :=
  [0xCA, 0xFE, 0xBA, 0xBE, 0, 0, 0, 52, 0, 0x21, 0, 1, 0xFF]

theorem decode_prefix_free_announcedBy_one :
    decode (announcedBy 1) = .ok (Class.new "A") ∧
    (∃ k, k ≤ 14 ∧ decode ((announcedBy 1).take 14) = .error (.malformed (.unexpectedEnd k))) ∧
    decode (announcedBy 1 ++ [0, 0]) = .error (.malformed (.trailingBytes 2)) ∧
    decode (unnamed ++ announcedBy 1) = .error (.malformed (.invalidUtf8 12)) ∧
    (∀ text, utf8 text ≠ [0xFF]) ∧
    decode ((announcedBy 1).take 16) = .error (.malformed (.unexpectedEnd 16)) := by
  have hfile : decode (announcedBy 1) = .ok (Class.new "A") := by decide +kernel
  have hunnamed : decode unnamed = .error (.malformed (.invalidUtf8 12)) := by decide +kernel
  have hlonger : decode ((announcedBy 1).take 20) = .error (.malformed (.unexpectedEnd 16)) := by
    decide +kernel
  refine ⟨hfile, ?_, ?_, ?_, ?_, ?_⟩
  · exact (decode_prefix_free (announcedBy 1)).1 _ hfile _ (List.take_prefix 14 _) (by decide)
  · exact ((decode_prefix_free (announcedBy 1 ++ [0, 0])).2.1 2).mpr
      ⟨by decide, by decide, Class.new "A", by decide +kernel⟩
  · exact (decode_prefix_free unnamed).2.2.2.1 _ hunnamed (.inr (.inr ⟨12, rfl⟩)) _
  · obtain ⟨_, length, hlength, _, hnone⟩ := (decode_prefix_free unnamed).2.2.2.2.1 12 hunnamed
    have hone : length = 1 := by
      rw [← hlength]
      decide
    subst hone
    exact hnone
  · exact ((decode_prefix_free _).2.2.2.2.2 16 hlonger).2 _
      (List.take_prefix_take_left (by decide)) (by decide)

end Prefixes

end Class

end ClassLoom
