import RepoCatalog.Listing
import RepoCatalog.Proofs.Step

/-!
# Reading one item after the other

However its source and its reader take turns, a relay comes to what the reader comes to by taking
the items one after the other.
-/
namespace RepoCatalog

namespace Reader

variable {σ : Type}

/-- The state in which the reader ends, and how it ends, if it takes items one after the other. -/
def readAll (reader : Reader σ) (s : σ) : List Item → σ × Ending
  | [] => (s, if reader.isCancelled s then .cancelled else .exhausted)
  | item :: items =>
    if reader.isCancelled s then (s, .cancelled)
    else
      let (t, goesOn) := reader.receive s item
      if goesOn then readAll reader t items else (t, .stopped)

theorem readAll_of_cancelled {reader : Reader σ} {s : σ} (h : reader.isCancelled s = true)
    (items : List Item) : reader.readAll s items = (s, .cancelled) := by
  cases items with
  | nil => rw [readAll, if_pos h]
  | cons item items => rw [readAll, if_pos h]

theorem readAll_cons {reader : Reader σ} {s : σ} (h : ¬reader.isCancelled s = true) (item : Item)
    (items : List Item) : reader.readAll s (item :: items) =
      if (reader.receive s item).2 then reader.readAll (reader.receive s item).1 items
      else ((reader.receive s item).1, .stopped) := by
  rw [readAll, if_neg h]

/-- A relation that every item keeps holds between the first state and the last. -/
theorem readAll_rel (reader : Reader σ) {R : σ → σ → Prop} [hR : Step.Chained R]
    (items : List Item) (h : ∀ item ∈ items, ∀ s, R s (reader.receive s item).1) (s : σ) :
    R s (reader.readAll s items).1 := by
  induction items generalizing s with
  | nil => exact hR.refl s
  | cons item items ih =>
      have hfirst := h item List.mem_cons_self s
      have hrest := ih (fun x hx => h x (List.mem_cons_of_mem item hx)) (reader.receive s item).1
      by_cases hc : reader.isCancelled s = true
      · rw [readAll_of_cancelled hc]
        exact hR.refl s
      · rw [readAll_cons hc]
        split
        · exact hR.trans hfirst hrest
        · exact hfirst

theorem isCancelled_of_readAll (reader : Reader σ) (s : σ) (items : List Item)
    (h : (reader.readAll s items).2 = .cancelled) :
    reader.isCancelled (reader.readAll s items).1 = true := by
  induction items generalizing s with
  | nil =>
      rw [readAll] at h ⊢
      split at h
      · assumption
      · cases h
  | cons item items ih =>
      by_cases hc : reader.isCancelled s = true
      · rw [readAll_of_cancelled hc]
        exact hc
      · rw [readAll_cons hc] at h ⊢
        split at h
        · rename_i hgo
          rw [if_pos hgo]
          exact ih _ h
        · cases h

theorem not_isCancelled_of_readAll (reader : Reader σ) (s : σ) (items : List Item)
    (h : (reader.readAll s items).2 = .exhausted) :
    reader.isCancelled (reader.readAll s items).1 = false := by
  induction items generalizing s with
  | nil =>
      rw [readAll] at h ⊢
      split at h
      · cases h
      · rename_i hgoing
        exact Bool.eq_false_iff.mpr hgoing
  | cons item items ih =>
      by_cases hc : reader.isCancelled s = true
      · rw [readAll_of_cancelled hc] at h
        cases h
      · rw [readAll_cons hc] at h ⊢
        split at h
        · rename_i hgo
          rw [if_pos hgo]
          exact ih _ h
        · cases h

end Reader

namespace Reader

variable {σ : Type} {reader : Reader σ} {s t : σ} {taken : List Item}

/-- A reader that has taken some items comes from then on to what it comes to with all of them. -/
def Takes (reader : Reader σ) (s : σ) (taken : List Item) (t : σ) : Prop :=
  ∀ rest, reader.readAll s (taken ++ rest) = reader.readAll t rest

theorem Takes.goesOn (h : reader.Takes s taken t) (hcalm : reader.isCancelled t = false)
    {item : Item} (hgo : (reader.receive t item).2 = true) :
    reader.Takes s (taken ++ [item]) (reader.receive t item).1 := by
  intro rest
  rw [List.append_assoc, h, List.singleton_append, readAll_cons (Bool.eq_false_iff.mp hcalm),
    if_pos hgo]

theorem Takes.stops (h : reader.Takes s taken t) (hcalm : reader.isCancelled t = false)
    {item : Item} (hgo : (reader.receive t item).2 = false) (rest : List Item) :
    reader.readAll s (taken ++ item :: rest) = ((reader.receive t item).1, .stopped) := by
  rw [h, readAll_cons (Bool.eq_false_iff.mp hcalm), if_neg (Bool.eq_false_iff.mp hgo)]

theorem Takes.exhausts (h : reader.Takes s taken t) (hcalm : reader.isCancelled t = false) :
    reader.readAll s taken = (t, .exhausted) := by
  rw [← List.append_nil taken, h, readAll, hcalm, if_neg Bool.false_ne_true]

end Reader

/-- Whether the reader looks for its next item. -/
def ReaderPhase.selects : ReaderPhase → Bool
  | .looking | .taking | .waiting => true
  | _ => false

theorem ReaderPhase.woken_ne_waiting (p : ReaderPhase) : p.woken ≠ .waiting := by
  cases p <;> nofun

theorem ReaderPhase.woken_of_ne {p : ReaderPhase} (h : p ≠ .waiting) : p.woken = p := by
  cases p with
  | waiting => exact absurd rfl h
  | _ => rfl

theorem ReaderPhase.woken_eq {p q : ReaderPhase} (h : p = q) (hq : q ≠ .waiting) : p.woken = q := by
  rw [h, woken_of_ne hq]

theorem ReaderPhase.selects_woken (p : ReaderPhase) : p.woken.selects = p.selects := by
  cases p <;> rfl

theorem ReaderPhase.isOpen_of_selects {p : ReaderPhase} (h : p.selects = true) :
    p.isOpen = true := by
  cases p with
  | looking | taking | waiting => rfl
  | _ => cases h

theorem ReaderPhase.taking_of_woken {p : ReaderPhase} (h : p.woken = .taking) : p = .taking := by
  cases p with
  | taking => rfl
  | _ => cases h

theorem SourcePhase.woken_ne_waiting (p : SourcePhase) : p.woken ≠ .waiting := by
  cases p <;> nofun

theorem SourcePhase.woken_eq_gone {p : SourcePhase} : p.woken = .gone ↔ p = .gone := by
  cases p <;> decide

theorem SourcePhase.wokenIf_eq_gone {isCancelled : Bool} {p : SourcePhase} :
    p.wokenIf isCancelled = .gone ↔ p = .gone := by
  cases isCancelled with
  | true => exact woken_eq_gone
  | false => exact Iff.rfl

theorem SourcePhase.waiting_of_wokenIf {isCancelled : Bool} {p : SourcePhase}
    (h : p.wokenIf isCancelled = .waiting) : p = .waiting := by
  cases isCancelled with
  | true => exact absurd h p.woken_ne_waiting
  | false => exact h

namespace Relay

variable {σ : Type} {reader : Reader σ} {s : σ} {items : List Item} {m m' : Relay σ}

/-- No side waits for what is there already. -/
structure Awake (m : Relay σ) : Prop where
  hasRoom : 0 < m.capacity
  reader : m.phase = .waiting → m.buffer = [] ∧ m.source ≠ .gone
  source : m.source = .waiting → m.phase.isOpen = true ∧ m.capacity ≤ m.buffer.length

theorem awake_start (capacity : Nat) (items : List Item) (s : σ) :
    (start capacity items s).Awake :=
  ⟨Nat.lt_of_lt_of_le Nat.one_pos (Nat.le_max_left 1 capacity), nofun, nofun⟩

theorem Awake.sent (h : m.Awake) (hsent : Sent reader m m') : m'.Awake := by
  cases hsent with
  | rests => exact h
  | looks => exact ⟨h.hasRoom, fun hphase => ⟨(h.reader hphase).1, nofun⟩, nofun⟩
  | leaves => exact ⟨h.hasRoom, fun hphase => absurd hphase m.phase.woken_ne_waiting, nofun⟩
  | sends => exact ⟨h.hasRoom, fun hphase => absurd hphase m.phase.woken_ne_waiting, nofun⟩
  | waits _ hopen hfull =>
      exact ⟨h.hasRoom, fun hphase => ⟨(h.reader hphase).1, nofun⟩, fun _ => ⟨hopen, hfull⟩⟩

theorem Awake.received (h : m.Awake) (hreceived : Received reader m m') : m'.Awake := by
  have hfull : m.source = .waiting → m.capacity ≤ m.buffer.length := fun hw => (h.source hw).2
  cases hreceived with
  | rests => exact h
  | sees | looks => exact ⟨h.hasRoom, nofun, fun hw => ⟨rfl, hfull hw⟩⟩
  | takes | closes => exact ⟨h.hasRoom, nofun, fun hw => absurd hw m.source.woken_ne_waiting⟩
  | ends _ _ hgone | finishes _ _ _ hgone =>
      exact ⟨h.hasRoom, nofun, fun hw => by cases hgone.symm.trans hw⟩
  | waits _ hbuffer hthere =>
      exact ⟨h.hasRoom, fun _ => ⟨hbuffer, hthere⟩, fun hw => ⟨rfl, hfull hw⟩⟩
  | goesOn | stops =>
      exact ⟨h.hasRoom, nofun, fun hw => ⟨rfl, hfull (SourcePhase.waiting_of_wokenIf hw)⟩⟩
  | discards ending hphase =>
      refine ⟨h.hasRoom, fun hw => ?_, fun hw => ?_⟩
      · cases hphase.symm.trans hw
      · have hopen := (h.source hw).1
        rw [hphase] at hopen
        cases hopen

theorem Awake.cancel (h : m.Awake) : m.cancel.Awake := by
  unfold Relay.cancel
  split
  · exact h
  · exact ⟨h.hasRoom, fun hphase => absurd hphase m.phase.woken_ne_waiting,
      fun hsource => absurd hsource m.source.woken_ne_waiting⟩

/-- The two sides never wait for one another. -/
theorem Awake.ending_of_still (h : m.Awake) (hsend : m.send reader = m)
    (hreceive : m.receive reader = m) : m.ending? ≠ none := by
  have hsource : m.source = .waiting ∨ m.source = .gone := by
    rcases (sent_send reader m).eq_or_lt with ⟨-, hsource⟩ | hlt
    · exact hsource
    · rw [hsend] at hlt
      exact absurd hlt (Nat.lt_irrefl _)
  have hrests : m.IsResting := by
    rcases (received_receive reader m).eq_or_lt with ⟨-, hrests⟩ | hlt
    · exact hrests
    · rw [hreceive] at hlt
      exact absurd hlt (Nat.lt_irrefl _)
  cases hrests with
  | waiting hphase =>
      obtain ⟨hbuffer, hthere⟩ := h.reader hphase
      have hfull := (h.source (hsource.resolve_right hthere)).2
      rw [hbuffer] at hfull
      exact absurd h.hasRoom (Nat.not_lt_of_le hfull)
  | draining ending hphase _ hthere =>
      have hopen := (h.source (hsource.resolve_right hthere)).1
      rw [hphase] at hopen
      cases hopen
  | done ending hphase =>
      rw [ending?, hphase]
      exact Option.some_ne_none ending

theorem still_of_round (h : ¬((m.send reader).receive reader).work < m.work) :
    m.send reader = m ∧ m.receive reader = m := by
  have hreceive := (received_receive reader (m.send reader)).eq_or_lt
  rcases (sent_send reader m).eq_or_lt with ⟨hsend, -⟩ | hlt
  · rw [hsend] at h hreceive
    exact ⟨hsend, (hreceive.resolve_right h).1⟩
  · refine absurd ?_ h
    rcases hreceive with ⟨heq, -⟩ | hless
    · rw [heq]
      exact hlt
    · exact Nat.lt_trans hless hlt

/-- How a reading can have ended: as it does if the items are taken one after the other, with a
cancellation from outside, or cut short, since the cancelled source ended before the reader saw the
cancellation. -/
inductive Ends (reader : Reader σ) (s : σ) (items : List Item) (m : Relay σ) (ending : Ending) :
    Prop
  | whole (hread : reader.readAll s items = (m.state, ending))
      (hall : ending = .exhausted → m.pending = [])
  | told (htold : m.isTold = true) (hending : ending = .cancelled)
  | cutShort (htold : m.isTold = true) (hending : ending = .exhausted) (hgone : m.source = .gone)
      (hleft : m.pending ≠ []) (taken : List Item) (hitems : taken ++ m.pending = items)
      (hread : reader.readAll s taken = (m.state, .exhausted))

/-- How far a reading of items can be. A source that has gone has sent everything or was told. -/
inductive Heads (reader : Reader σ) (s : σ) (items : List Item) (m : Relay σ) : Prop
  | reading (hphase : m.phase.selects = true) (taken : List Item)
      (hitems : taken ++ (m.buffer ++ m.pending) = items) (htakes : reader.Takes s taken m.state)
      (hcalm : m.phase = .taking → reader.isCancelled m.state = false)
      (hleft : m.source = .gone → m.isCancelled reader = true ∨ m.pending = [])
  | handling (item : Item) (hphase : m.phase = .handling item) (taken : List Item)
      (hitems : taken ++ item :: (m.buffer ++ m.pending) = items)
      (htakes : reader.Takes s taken m.state) (hcalm : reader.isCancelled m.state = false)
      (hleft : m.source = .gone → m.isTold = true ∨ m.pending = [])
  | ending (ending : Ending) (hphase : m.phase = .closing ending ∨ m.phase = .draining ending)
      (hends : m.Ends reader s items ending)
  | done (ending : Ending) (hphase : m.phase = .done ending)
      (hends : m.Ends reader s items ending) (hbuffer : m.buffer = []) (hgone : m.source = .gone)

theorem heads_start (reader : Reader σ) (capacity : Nat) (items : List Item) (s : σ) :
    (start capacity items s).Heads reader s items :=
  .reading rfl [] rfl (fun _ => rfl) nofun nofun

/-- What stays as it is once the reader takes no more. -/
structure Continues (m m' : Relay σ) : Prop where
  state : m'.state = m.state
  isTold : m.isTold = true → m'.isTold = true
  pending : m.pending = [] ∨ m.source = .gone → m'.pending = m.pending
  source : m.source = .gone → m'.source = .gone

theorem Ends.of_continues {ending : Ending} (h : m.Ends reader s items ending)
    (hkeeps : m.Continues m') : m'.Ends reader s items ending := by
  cases h with
  | whole hread hall =>
      refine .whole (by rw [hkeeps.state, hread]) fun hending => ?_
      rw [hkeeps.pending (.inl (hall hending)), hall hending]
  | told htold hending => exact .told (hkeeps.isTold htold) hending
  | cutShort htold hending hgone hleft taken hitems hread =>
      have hpending := hkeeps.pending (.inr hgone)
      exact .cutShort (hkeeps.isTold htold) hending (hkeeps.source hgone) (hpending ▸ hleft) taken
        (hpending ▸ hitems) (by rw [hkeeps.state, hread])

theorem Sent.continues (h : Sent reader m m') : m.Continues m' := by
  cases h with
  | rests => exact ⟨rfl, id, fun _ => rfl, id⟩
  | looks hsource | waits hsource =>
      exact ⟨rfl, id, fun _ => rfl, fun hgone => by cases hsource.symm.trans hgone⟩
  | leaves => exact ⟨rfl, id, fun _ => rfl, fun _ => rfl⟩
  | sends hsource _ item rest hpending =>
      have hthere : m.source ≠ .gone := fun hgone => by cases hsource.symm.trans hgone
      refine ⟨rfl, id, fun hnone => ?_, fun hgone => absurd hgone hthere⟩
      cases (hnone.resolve_right hthere).symm.trans hpending

theorem Sent.phase_eq (h : Sent reader m m') (hphase : m.phase ≠ .waiting) :
    m'.phase = m.phase := by
  cases h with
  | rests | looks | waits => rfl
  | leaves | sends => exact ReaderPhase.woken_of_ne hphase

theorem Sent.eq_of_gone (h : Sent reader m m') (hgone : m.source = .gone) : m' = m := by
  cases h with
  | rests => rfl
  | looks hsource | sends hsource | waits hsource => cases hsource.symm.trans hgone
  | leaves hsource => rcases hsource with hsource | hsource <;> cases hsource.symm.trans hgone

theorem Heads.sent (h : m.Heads reader s items) (hsent : Sent reader m m') :
    m'.Heads reader s items := by
  cases h with
  | ending ending hphase hends =>
      have hkept : m'.phase = m.phase :=
        hsent.phase_eq fun hw => by
          rcases hphase with hphase | hphase <;> cases hphase.symm.trans hw
      exact .ending ending (hkept ▸ hphase) (hends.of_continues hsent.continues)
  | done ending hphase hends hbuffer hgone =>
      rw [hsent.eq_of_gone hgone]
      exact .done ending hphase hends hbuffer hgone
  | handling item hphase taken hitems htakes hcalm hleft =>
      have hkept : m'.phase = .handling item :=
        (hsent.phase_eq fun hw => by cases hphase.symm.trans hw).trans hphase
      cases hsent with
      | rests => exact .handling item hphase taken hitems htakes hcalm hleft
      | looks => exact .handling item hkept taken hitems htakes hcalm nofun
      | leaves _ hreason =>
          refine .handling item hkept taken hitems htakes hcalm fun _ => ?_
          rw [isCancelled, hcalm, Bool.or_false, hphase] at hreason
          exact hreason.imp_right fun hreason => hreason.resolve_left nofun
      | sends _ _ first rest hpending =>
          refine .handling item hkept taken ?_ htakes hcalm nofun
          rw [List.append_assoc, List.singleton_append, ← hpending, hitems]
      | waits => exact .handling item hkept taken hitems htakes hcalm nofun
  | reading hphase taken hitems htakes hcalm hleft =>
      have hwoken : m.phase.woken.selects = true := m.phase.selects_woken.trans hphase
      have hcalm' := fun htaking => hcalm (ReaderPhase.taking_of_woken htaking)
      cases hsent with
      | rests => exact .reading hphase taken hitems htakes hcalm hleft
      | looks => exact .reading hphase taken hitems htakes hcalm nofun
      | leaves _ hreason =>
          refine .reading hwoken taken hitems htakes hcalm' fun _ => ?_
          rw [ReaderPhase.isOpen_of_selects hphase] at hreason
          exact hreason.imp_right fun hreason => hreason.resolve_left nofun
      | sends _ _ first rest hpending =>
          refine .reading hwoken taken ?_ htakes hcalm' nofun
          rw [List.append_assoc, List.singleton_append, ← hpending, hitems]
      | waits => exact .reading hphase taken hitems htakes hcalm nofun

theorem Heads.of_selects (h : m.Heads reader s items) (hphase : m.phase.selects = true) :
    ∃ taken, taken ++ (m.buffer ++ m.pending) = items ∧ reader.Takes s taken m.state ∧
      (m.phase = .taking → reader.isCancelled m.state = false) ∧
      (m.source = .gone → m.isCancelled reader = true ∨ m.pending = []) := by
  cases h with
  | reading _ taken hitems htakes hcalm hleft => exact ⟨taken, hitems, htakes, hcalm, hleft⟩
  | handling item hphase' | done ending hphase' =>
      rw [hphase'] at hphase
      cases hphase
  | ending ending hphase' =>
      rcases hphase' with hphase' | hphase' <;> rw [hphase'] at hphase <;> cases hphase

theorem Heads.of_handling (h : m.Heads reader s items) {item : Item}
    (hphase : m.phase = .handling item) :
    ∃ taken, taken ++ item :: (m.buffer ++ m.pending) = items ∧ reader.Takes s taken m.state ∧
      reader.isCancelled m.state = false ∧
      (m.source = .gone → m.isTold = true ∨ m.pending = []) := by
  cases h with
  | handling _ hphase' taken hitems htakes hcalm hleft =>
      cases hphase.symm.trans hphase'
      exact ⟨taken, hitems, htakes, hcalm, hleft⟩
  | reading hphase' =>
      rw [hphase] at hphase'
      cases hphase'
  | ending ending hphase' =>
      rcases hphase' with hphase' | hphase' <;> cases hphase.symm.trans hphase'
  | done ending hphase' => cases hphase.symm.trans hphase'

theorem Heads.of_ending (h : m.Heads reader s items) {ending : Ending}
    (hphase : m.phase = .closing ending ∨ m.phase = .draining ending) :
    m.Ends reader s items ending := by
  cases h with
  | ending _ hphase' hends =>
      rcases hphase with hphase | hphase <;> rcases hphase' with hphase' | hphase' <;>
        cases hphase.symm.trans hphase'
      · exact hends
      · exact hends
  | reading hphase' =>
      rcases hphase with hphase | hphase <;> rw [hphase] at hphase' <;> cases hphase'
  | handling item hphase' | done ending hphase' =>
      rcases hphase with hphase | hphase <;> cases hphase.symm.trans hphase'

theorem Heads.received (h : m.Heads reader s items) (hreceived : Received reader m m') :
    m'.Heads reader s items := by
  cases hreceived with
  | rests => exact h
  | sees hphase hcancelled =>
      obtain ⟨taken, hitems, htakes, -⟩ := h.of_selects (by
        rcases hphase with hphase | hphase <;> rw [hphase] <;> rfl)
      refine .ending .cancelled (.inl rfl) ?_
      rw [isCancelled, Bool.or_eq_true] at hcancelled
      rcases hcancelled with htold | hcancelled
      · exact .told htold rfl
      · refine .whole ?_ nofun
        rw [← hitems, htakes, Reader.readAll_of_cancelled hcancelled]
  | looks hphase hgoing =>
      obtain ⟨taken, hitems, htakes, -, hleft⟩ := h.of_selects (by rw [hphase]; rfl)
      rw [isCancelled, Bool.or_eq_false_iff] at hgoing
      exact .reading rfl taken hitems htakes (fun _ => hgoing.2) hleft
  | takes hphase item rest hbuffer =>
      obtain ⟨taken, hitems, htakes, hcalm, hleft⟩ := h.of_selects (by rw [hphase]; rfl)
      rw [hbuffer] at hitems
      refine .handling item rfl taken hitems htakes (hcalm hphase) fun hgone => ?_
      rw [isCancelled, hcalm hphase, Bool.or_false] at hleft
      exact hleft (SourcePhase.woken_eq_gone.mp hgone)
  | ends hphase hbuffer hgone =>
      -- The channel is empty and its source gone: because everything was sent, or because the
      -- source saw a cancellation that came after the reader had looked.
      obtain ⟨taken, hitems, htakes, hcalm, hleft⟩ := h.of_selects (by rw [hphase]; rfl)
      rw [hbuffer, List.nil_append] at hitems
      rw [isCancelled, hcalm hphase, Bool.or_false] at hleft
      have hread := htakes.exhausts (hcalm hphase)
      refine .ending .exhausted (.inl rfl) ?_
      by_cases hpending : m.pending = []
      · rw [hpending, List.append_nil] at hitems
        exact .whole (hitems ▸ hread) fun _ => hpending
      · exact .cutShort ((hleft hgone).resolve_right hpending) rfl hgone hpending taken hitems hread
  | waits hphase =>
      obtain ⟨taken, hitems, htakes, -, hleft⟩ := h.of_selects (by rw [hphase]; rfl)
      exact .reading rfl taken hitems htakes nofun hleft
  | goesOn item hphase t hreceive =>
      obtain ⟨taken, hitems, htakes, hcalm, hleft⟩ := h.of_handling hphase
      have htakes' := htakes.goesOn hcalm (congrArg Prod.snd hreceive)
      rw [hreceive] at htakes'
      refine .reading rfl (taken ++ [item]) ?_ htakes' nofun fun hgone => ?_
      · rw [List.append_assoc, List.singleton_append, hitems]
      · refine (hleft (SourcePhase.wokenIf_eq_gone.mp hgone)).imp_left fun htold => ?_
        rw [isCancelled, htold, Bool.true_or]
  | stops item hphase t hreceive =>
      obtain ⟨taken, hitems, htakes, hcalm, -⟩ := h.of_handling hphase
      have hread := htakes.stops hcalm (congrArg Prod.snd hreceive) (m.buffer ++ m.pending)
      rw [hitems, hreceive] at hread
      exact .ending .stopped (.inl rfl) (.whole hread nofun)
  | closes ending hphase =>
      have hends := h.of_ending (.inl hphase)
      refine .ending ending (.inr rfl) (hends.of_continues ⟨rfl, id, fun _ => rfl, ?_⟩)
      exact SourcePhase.woken_eq_gone.mpr
  | discards ending hphase =>
      have hends := h.of_ending (.inr hphase)
      exact .ending ending (.inr hphase) (hends.of_continues ⟨rfl, id, fun _ => rfl, id⟩)
  | finishes ending hphase hbuffer hgone =>
      have hends := h.of_ending (.inr hphase)
      exact .done ending rfl (hends.of_continues ⟨rfl, id, fun _ => rfl, id⟩) hbuffer hgone

theorem Heads.cancel (h : m.Heads reader s items) : m.cancel.Heads reader s items := by
  unfold Relay.cancel
  split
  · exact h
  cases h with
  | reading hphase taken hitems htakes hcalm hleft =>
      exact .reading (m.phase.selects_woken.trans hphase) taken hitems htakes
        (fun htaking => hcalm (ReaderPhase.taking_of_woken htaking)) fun _ => .inl rfl
  | handling item hphase taken hitems htakes hcalm hleft =>
      exact .handling item (ReaderPhase.woken_eq hphase nofun) taken hitems htakes hcalm
        fun _ => .inl rfl
  | ending ending hphase hends =>
      refine .ending ending ?_ (hends.of_continues ⟨rfl, fun _ => rfl, fun _ => rfl, ?_⟩)
      · exact hphase.imp (ReaderPhase.woken_eq · nofun) (ReaderPhase.woken_eq · nofun)
      · exact SourcePhase.woken_eq_gone.mpr
  | done ending hphase hends hbuffer hgone =>
      refine .done ending (ReaderPhase.woken_eq hphase nofun) ?_ hbuffer
        (SourcePhase.woken_eq_gone.mpr hgone)
      exact hends.of_continues ⟨rfl, fun _ => rfl, fun _ => rfl, SourcePhase.woken_eq_gone.mpr⟩

theorem Sent.isTold_eq (h : Sent reader m m') : m'.isTold = m.isTold := by
  cases h <;> rfl

theorem Received.isTold_eq (h : Received reader m m') : m'.isTold = m.isTold := by
  cases h <;> rfl

theorem phase_of_ending {ending : Ending} (h : m.ending? = some ending) :
    m.phase = .done ending := by
  unfold ending? at h
  split at h
  · rename_i hphase
    rw [hphase, Option.some.inj h]
  · cases h

theorem Heads.ends_of_ending (h : m.Heads reader s items) {ending : Ending}
    (hending : m.ending? = some ending) :
    m.Ends reader s items ending ∧ m.buffer = [] ∧ m.source = .gone := by
  have hdone := phase_of_ending hending
  cases h with
  | done ending' hphase hends hbuffer hgone =>
      cases hdone.symm.trans hphase
      exact ⟨hends, hbuffer, hgone⟩
  | reading hphase =>
      rw [hdone] at hphase
      cases hphase
  | handling item hphase => cases hdone.symm.trans hphase
  | ending _ hphase => rcases hphase with hphase | hphase <;> cases hdone.symm.trans hphase

/-- A relay that is not told to stop comes to what its reader comes to by itself. -/
theorem run_spec (m : Relay σ) (hawake : m.Awake) (h : m.Heads reader s items)
    (htold : m.isTold = false) :
    (m.run reader).state = (reader.readAll s items).1 ∧
      (m.run reader).ending? = some (reader.readAll s items).2 := by
  induction m using run.induct reader with
  | case1 m next hless ih =>
      have hsent := sent_send reader m
      have hreceived := received_receive reader (m.send reader)
      rw [run, if_pos hless]
      refine ih ((hawake.sent hsent).received hreceived) ((h.sent hsent).received hreceived) ?_
      rw [hreceived.isTold_eq, hsent.isTold_eq, htold]
  | case2 m next hleast =>
      rw [run, if_neg hleast]
      obtain ⟨hsend, hreceive⟩ := still_of_round hleast
      obtain ⟨ending, hending⟩ := Option.ne_none_iff_exists'.mp
        (hawake.ending_of_still hsend hreceive)
      obtain ⟨hends, -⟩ := h.ends_of_ending hending
      cases hends with
      | whole hread => exact ⟨(congrArg Prod.fst hread).symm, by rw [hending, hread]⟩
      | told htold' | cutShort htold' => cases htold.symm.trans htold'

theorem run_start (reader : Reader σ) (capacity : Nat) (items : List Item) (s : σ) :
    ((start capacity items s).run reader).state = (reader.readAll s items).1 ∧
      ((start capacity items s).run reader).ending? = some (reader.readAll s items).2 :=
  run_spec _ (awake_start capacity items s) (heads_start reader capacity items s) rfl

end Relay

namespace Listing

/-- The repositories and the failures among items, each in order. -/
def ofItems (items : List Item) : Listing where
  repos := items.filterMap fun item => item.toOption
  errors := items.filterMap fun
    | .ok _ => none
    | .error e => some e

variable {σ ε : Type} {hook : Hook σ ε} {isCancelled : σ → Bool} {cancelled : ε} {capacity : Nat}
  {items : List Item} {s : σ}

theorem collect_eq (hook : Hook σ ε) (isCancelled : σ → Bool) (cancelled : ε) (capacity : Nat)
    (items : List Item) (s : σ) :
    collect hook isCancelled cancelled capacity items s =
      let p := ((collector hook isCancelled).readAll ⟨s, empty, none⟩ items).1
      match ((collector hook isCancelled).readAll ⟨s, empty, none⟩ items).2, p.failure with
      | .cancelled, _ => (.error cancelled, p.state)
      | _, some e => (.error e, p.state)
      | _, none => (.ok p.listing, p.state) := by
  obtain ⟨hstate, hending⟩ := Relay.run_start (collector hook isCancelled) capacity items
    ⟨s, empty, none⟩
  unfold collect answer
  simp only [hending, hstate]
  cases Reader.readAll _ _ items with
  | mk p ending => cases ending <;> cases p.failure <;> rfl

theorem receive_of_taken {p : Progress σ ε} {repo : Repo} {u : Unit} {t : σ}
    (h : hook repo p.state = (.ok u, t)) : (collector hook isCancelled).receive p (.ok repo) =
      (⟨t, ⟨p.listing.repos ++ [repo], p.listing.errors⟩, p.failure⟩, true) := by
  simp only [collector, Progress.take, h]

theorem receive_of_refused {p : Progress σ ε} {repo : Repo} {e : ε} {t : σ}
    (h : hook repo p.state = (.error e, t)) : (collector hook isCancelled).receive p (.ok repo) =
      (⟨t, p.listing, some e⟩, false) := by
  simp only [collector, Progress.take, h]

theorem receive_failure (p : Progress σ ε) (e : SourceError) :
    (collector hook isCancelled).receive p (.error e) =
      (⟨p.state, ⟨p.listing.repos, p.listing.errors ++ [e]⟩, p.failure⟩, true) := rfl

theorem readAll_failure (isCancelled : σ → Bool) (items : List Item) {p : ε → Prop}
    (hhook : ∀ repo s e t, hook repo s = (.error e, t) → p e) (x : Progress σ ε)
    (hx : ∀ e, x.failure = some e → p e) :
    ∀ e, ((collector hook isCancelled).readAll x items).1.failure = some e → p e := by
  let onFailure : Progress σ ε → Progress σ ε → Prop := fun x z =>
    (∀ e, x.failure = some e → p e) → ∀ e, z.failure = some e → p e
  have : Step.Chained onFailure := ⟨fun x hx => hx, fun hxy hyz hx => hyz (hxy hx)⟩
  refine Reader.readAll_rel (collector hook isCancelled) (R := onFailure) items ?_ x hx
  intro item _ x hx
  cases item with
  | ok repo =>
      cases hrun : hook repo x.state with
      | mk r u =>
          cases r with
          | ok v =>
              rw [receive_of_taken hrun]
              exact hx
          | error e' =>
              rw [receive_of_refused hrun]
              intro e'' he''
              cases he''
              exact hhook repo x.state e' u hrun
  | error e' => exact hx

/-- A reading fails as it was told to if it is cancelled, and else as its hook does. -/
theorem collect_error {p : ε → Prop} {e : ε} {t : σ} (hcancelled : p cancelled)
    (hhook : ∀ repo s e t, hook repo s = (.error e, t) → p e)
    (h : collect hook isCancelled cancelled capacity items s = (.error e, t)) : p e := by
  have hread := readAll_failure isCancelled items hhook ⟨s, empty, none⟩
    fun e he => (by cases he)
  rw [collect_eq] at h
  cases hpair : (collector hook isCancelled).readAll ⟨s, empty, none⟩ items with
  | mk x ending =>
      rw [hpair] at h hread
      cases hfailure : x.failure with
      | some e' =>
          simp only [hfailure] at h
          cases ending <;> cases h
          · exact hread e hfailure
          · exact hread e hfailure
          · exact hcancelled
      | none =>
          simp only [hfailure] at h
          cases ending <;> cases h
          exact hcancelled

theorem state_readAll (isCancelled : σ → Bool) {R : σ → σ → Prop} [hR : Step.Chained R]
    (hhook : ∀ repo, .ok repo ∈ items → Step.Within R (hook repo)) (p : Progress σ ε) :
    R p.state ((collector hook isCancelled).readAll p items).1.state := by
  let onState : Progress σ ε → Progress σ ε → Prop := fun p q => R p.state q.state
  have : Step.Chained onState := ⟨fun p => hR.refl p.state, fun h h' => hR.trans h h'⟩
  refine Reader.readAll_rel (collector hook isCancelled) (R := onState) items ?_ p
  intro item hitem p
  cases item with
  | ok repo =>
      have hrepo := hhook repo hitem p.state
      simp only [onState, collector, Progress.take]
      cases hrun : hook repo p.state with
      | mk r t =>
          rw [hrun] at hrepo
          cases r <;> exact hrepo
  | error e => exact hR.refl p.state

theorem state_collect (hook : Hook σ ε) (isCancelled : σ → Bool) (cancelled : ε) (capacity : Nat)
    (items : List Item) (s : σ) : (collect hook isCancelled cancelled capacity items s).2 =
      ((collector hook isCancelled).readAll ⟨s, empty, none⟩ items).1.state := by
  rw [collect_eq]
  simp only []
  split <;> rfl

theorem collect_rel {R : σ → σ → Prop} [hR : Step.Chained R]
    (hhook : ∀ repo, .ok repo ∈ items → Step.Within R (hook repo)) :
    R s (collect hook isCancelled cancelled capacity items s).2 := by
  rw [state_collect]
  exact state_readAll isCancelled hhook ⟨s, empty, none⟩

theorem collect_error_of_going {R : σ → σ → Prop} [Step.Chained R] {p : ε → Prop} {e : ε} {t : σ}
    (hkeeps : ∀ repo, .ok repo ∈ items → Step.Within R (hook repo))
    (hgoing : ∀ t, R s t → isCancelled t = false)
    (hhook : ∀ repo s e t, hook repo s = (.error e, t) → p e)
    (h : collect hook isCancelled cancelled capacity items s = (.error e, t)) : p e := by
  have hread := readAll_failure isCancelled items hhook ⟨s, empty, none⟩
    fun e he => (by cases he)
  have hstate : R s _ := state_readAll isCancelled hkeeps ⟨s, empty, none⟩
  have hending := Reader.isCancelled_of_readAll (collector hook isCancelled) ⟨s, empty, none⟩ items
  rw [collect_eq] at h
  cases hpair : (collector hook isCancelled).readAll ⟨s, empty, none⟩ items with
  | mk x ending =>
      rw [hpair] at h hread hstate hending
      cases ending with
      | cancelled => cases (hgoing _ hstate).symm.trans (hending rfl)
      | exhausted | stopped =>
          cases hfailure : x.failure with
          | some e' =>
              simp only [hfailure] at h
              cases h
              exact hread e hfailure
          | none =>
              simp only [hfailure] at h
              cases h

theorem readAll_collector (hook : Hook σ ε) (isCancelled : σ → Bool) (p : Progress σ ε)
    (items : List Item)
    (hfailure : ((collector hook isCancelled).readAll p items).1.failure = none)
    (hending : ((collector hook isCancelled).readAll p items).2 ≠ .cancelled) :
    ((collector hook isCancelled).readAll p items).1.listing =
      ⟨p.listing.repos ++ (ofItems items).repos, p.listing.errors ++ (ofItems items).errors⟩ := by
  induction items generalizing p with
  | nil => simp [Reader.readAll, ofItems]
  | cons item items ih =>
      by_cases hc : (collector hook isCancelled).isCancelled p = true
      · rw [Reader.readAll_of_cancelled hc] at hending
        exact absurd rfl hending
      · rw [Reader.readAll_cons hc] at hfailure hending ⊢
        cases item with
        | ok repo =>
            cases hrun : hook repo p.state with
            | mk r t =>
                cases r with
                | ok u =>
                    rw [receive_of_taken hrun, if_pos rfl] at hfailure hending ⊢
                    refine (ih _ hfailure hending).trans ?_
                    simp [ofItems, Except.toOption]
                | error e =>
                    rw [receive_of_refused hrun] at hfailure
                    cases hfailure
        | error e =>
            rw [receive_failure, if_pos rfl] at hfailure hending ⊢
            refine (ih _ hfailure hending).trans ?_
            simp [ofItems, Except.toOption]

theorem collect_ok {listing : Listing} {t : σ}
    (h : collect hook isCancelled cancelled capacity items s = (.ok listing, t)) :
    listing = ofItems items := by
  rw [collect_eq] at h
  have hread := readAll_collector hook isCancelled ⟨s, empty, none⟩ items
  cases hpair : (collector hook isCancelled).readAll ⟨s, empty, none⟩ items with
  | mk p ending =>
      rw [hpair] at h hread
      cases hfailure : p.failure with
      | some e =>
          simp only [hfailure] at h
          cases ending <;> cases h
      | none =>
          simp only [hfailure] at h
          cases ending with
          | cancelled => cases h
          | exhausted =>
              cases h
              exact (hread hfailure Ending.noConfusion).trans (by simp [empty])
          | stopped =>
              cases h
              exact (hread hfailure Ending.noConfusion).trans (by simp [empty])

theorem collect_of_failure {e : ε}
    (hending : ((collector hook isCancelled).readAll ⟨s, empty, none⟩ items).2 ≠ .cancelled)
    (hfailure : ((collector hook isCancelled).readAll ⟨s, empty, none⟩ items).1.failure = some e) :
    collect hook isCancelled cancelled capacity items s =
      (.error e, ((collector hook isCancelled).readAll ⟨s, empty, none⟩ items).1.state) := by
  rw [collect_eq]
  simp only [hfailure]

theorem collect_of_end
    (hending : ((collector hook isCancelled).readAll ⟨s, empty, none⟩ items).2 ≠ .cancelled)
    (hfailure : ((collector hook isCancelled).readAll ⟨s, empty, none⟩ items).1.failure = none) :
    collect hook isCancelled cancelled capacity items s = (.ok (ofItems items),
      ((collector hook isCancelled).readAll ⟨s, empty, none⟩ items).1.state) := by
  have hlisting := readAll_collector hook isCancelled ⟨s, empty, none⟩ items hfailure hending
  rw [collect_eq]
  simp only [hfailure, hlisting]
  rfl

theorem readAll_collector_total {I : σ → Prop} (hcalm : ∀ s, I s → isCancelled s = false)
    (hhook : ∀ repo, .ok repo ∈ items → ∀ s, I s → ∃ t, hook repo s = (.ok (), t) ∧ I t)
    (p : Progress σ ε) (hp : I p.state) (hnone : p.failure = none) :
    ((collector hook isCancelled).readAll p items).2 = .exhausted ∧
      ((collector hook isCancelled).readAll p items).1.failure = none ∧
        I ((collector hook isCancelled).readAll p items).1.state := by
  induction items generalizing p with
  | nil =>
      refine ⟨?_, hnone, hp⟩
      have hc : (collector hook isCancelled).isCancelled p = false := hcalm _ hp
      simp [Reader.readAll, hc]
  | cons item items ih =>
      have hc : ¬(collector hook isCancelled).isCancelled p = true :=
        Bool.eq_false_iff.mp (hcalm _ hp)
      have hrest := ih fun repo hrepo => hhook repo (List.mem_cons_of_mem item hrepo)
      rw [Reader.readAll_cons hc]
      cases item with
      | ok repo =>
          obtain ⟨t, hrun, ht⟩ := hhook repo List.mem_cons_self _ hp
          rw [receive_of_taken hrun, if_pos rfl]
          exact hrest _ ht hnone
      | error e => exact hrest _ hp hnone

theorem collect_total {I : σ → Prop} (hcalm : ∀ s, I s → isCancelled s = false)
    (hhook : ∀ repo, .ok repo ∈ items → ∀ s, I s → ∃ t, hook repo s = (.ok (), t) ∧ I t)
    (hs : I s) : ∃ listing t,
      collect hook isCancelled cancelled capacity items s = (.ok listing, t) ∧ I t := by
  obtain ⟨hending, hfailure, hend⟩ := readAll_collector_total hcalm hhook
    ⟨s, empty, none⟩ hs rfl
  have hexhausted : ((collector hook isCancelled).readAll ⟨s, empty, none⟩ items).2 ≠ .cancelled :=
    hending ▸ Ending.noConfusion
  exact ⟨_, _, collect_of_end hexhausted hfailure, hend⟩

end Listing

end RepoCatalog
