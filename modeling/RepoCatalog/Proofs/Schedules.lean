import Mathlib.Data.List.Basic
import RepoCatalog.Proofs.Relay

/-!
# Readings under every schedule

The two sides of a relay move in any order, and the reading may be cancelled at any time. Whatever
the order, nothing is left behind, and a reading gets done unless one of the sides is never let move
again. One that is never cancelled answers as if its reader had taken the items one after the other.
One that is cancelled answers so too, or with its cancellation, unless its source gave up just after
the reader had looked: then it takes what had been sent for the whole listing.
-/
namespace RepoCatalog

/-- Neither side is kept from moving for ever. -/
def Fair (moves : Nat → Move) : Prop :=
  ∀ n, (∃ k ≥ n, moves k = .send) ∧ ∃ k ≥ n, moves k = .receive

namespace Relay

variable {σ : Type} {reader : Reader σ} {s : σ} {items : List Item} {m m' : Relay σ}

/-- The relay after the first moves of a schedule. -/
def after (reader : Reader σ) (moves : Nat → Move) (m : Relay σ) : Nat → Relay σ
  | 0 => m
  | n + 1 => (after reader moves m n).move reader (moves n)

theorem move_eq_or_lt (reader : Reader σ) (m : Relay σ) (a : Move) :
    m.move reader a = m ∨ (m.move reader a).work < m.work := by
  cases a with
  | send => exact (sent_send reader m).eq_or_lt.imp_left And.left
  | receive => exact (received_receive reader m).eq_or_lt.imp_left And.left
  | cancel => exact cancel_eq_or_lt m

theorem Awake.after (h : m.Awake) (moves : Nat → Move) (n : Nat) :
    (m.after reader moves n).Awake := by
  induction n with
  | zero => exact h
  | succ n ih =>
      rw [Relay.after]
      cases moves n with
      | send => exact ih.sent (sent_send reader _)
      | receive => exact ih.received (received_receive reader _)
      | cancel => exact ih.cancel

theorem Heads.after (h : m.Heads reader s items) (moves : Nat → Move) (n : Nat) :
    (m.after reader moves n).Heads reader s items := by
  induction n with
  | zero => exact h
  | succ n ih =>
      rw [Relay.after]
      cases moves n with
      | send => exact ih.sent (sent_send reader _)
      | receive => exact ih.received (received_receive reader _)
      | cancel => exact ih.cancel

theorem isTold_after (moves : Nat → Move) (n : Nat) (h : (m.after reader moves n).isTold = true) :
    m.isTold = true ∨ ∃ k < n, moves k = .cancel := by
  induction n with
  | zero => exact .inl h
  | succ n ih =>
      have hlast : (m.after reader moves n).isTold = true ∨ moves n = .cancel := by
        rw [Relay.after] at h
        cases ha : moves n with
        | send =>
            rw [ha, move, (sent_send reader _).isTold_eq] at h
            exact .inl h
        | receive =>
            rw [ha, move, (received_receive reader _).isTold_eq] at h
            exact .inl h
        | cancel => exact .inr rfl
      rcases hlast with htold | hcancel
      · exact (ih htold).imp_right fun ⟨k, hk, hmove⟩ => ⟨k, Nat.lt_succ_of_lt hk, hmove⟩
      · exact .inr ⟨n, Nat.lt_succ_self n, hcancel⟩

/-- What is done stays so. -/
structure Closed (m m' : Relay σ) : Prop where
  phase : m'.phase = m.phase
  state : m'.state = m.state
  buffer : m'.buffer = m.buffer
  source : m'.source = m.source

theorem closed_move (reader : Reader σ) {ending : Ending} (hphase : m.phase = .done ending)
    (hgone : m.source = .gone) (a : Move) : m.Closed (m.move reader a) := by
  cases a with
  | send =>
      rw [move, (sent_send reader m).eq_of_gone hgone]
      exact ⟨rfl, rfl, rfl, rfl⟩
  | receive =>
      rw [move, receive, hphase]
      exact ⟨rfl, rfl, rfl, rfl⟩
  | cancel =>
      rw [move, cancel]
      split
      · exact ⟨rfl, rfl, rfl, rfl⟩
      · refine ⟨?_, rfl, rfl, ?_⟩
        · exact (ReaderPhase.woken_eq hphase nofun).trans hphase.symm
        · exact (SourcePhase.woken_eq_gone.mpr hgone).trans hgone.symm

theorem closed_after {ending : Ending} {moves : Nat → Move} {n : Nat}
    (hphase : (m.after reader moves n).phase = .done ending)
    (hgone : (m.after reader moves n).source = .gone) {k : Nat} (hk : n ≤ k) :
    (m.after reader moves n).Closed (m.after reader moves k) := by
  induction hk with
  | refl => exact ⟨rfl, rfl, rfl, rfl⟩
  | @step k hk ih =>
      have hnext := closed_move reader (ih.phase.trans hphase) (ih.source.trans hgone) (moves k)
      exact ⟨hnext.phase.trans ih.phase, hnext.state.trans ih.state, hnext.buffer.trans ih.buffer,
        hnext.source.trans ih.source⟩

theorem work_after_le (moves : Nat → Move) {n k : Nat} (hk : n ≤ k) :
    (m.after reader moves k).work ≤ (m.after reader moves n).work := by
  induction hk with
  | refl => exact Nat.le_refl _
  | @step k hk ih =>
      rcases move_eq_or_lt reader (m.after reader moves k) (moves k) with heq | hlt
      · rw [Relay.after, heq]
        exact ih
      · exact Nat.le_trans (Nat.le_of_lt hlt) ih

theorem after_eq_of_work {moves : Nat → Move} {n : Nat}
    (h : ∀ k ≥ n, (m.after reader moves n).work ≤ (m.after reader moves k).work) {k : Nat}
    (hk : n ≤ k) : m.after reader moves k = m.after reader moves n := by
  induction hk with
  | refl => rfl
  | @step k hk ih =>
      rcases move_eq_or_lt reader (m.after reader moves k) (moves k) with heq | hlt
      · rw [Relay.after, heq, ih]
      · exact absurd (h (k + 1) (Nat.le_succ_of_le hk))
          (Nat.not_le_of_lt (Nat.lt_of_lt_of_le hlt (work_after_le moves hk)))

/-- Under a fair schedule a reader that is not done will have less to do: had it always as much, no
move would change anything, so that it could not wait for anything either. -/
theorem Awake.exists_work_lt (hawake : m.Awake) {moves : Nat → Move} (hfair : Fair moves) {n : Nat}
    (h : (m.after reader moves n).ending? = none) :
    ∃ k ≥ n, (m.after reader moves k).work < (m.after reader moves n).work := by
  by_contra hnone
  have hleast : ∀ k ≥ n, (m.after reader moves n).work ≤ (m.after reader moves k).work :=
    fun k hk => Nat.le_of_not_lt fun hlt => hnone ⟨k, hk, hlt⟩
  have hmoved : ∀ k ≥ n, (m.after reader moves n).move reader (moves k) =
      m.after reader moves n := by
    intro k hk
    have hnext := after_eq_of_work hleast (Nat.le_succ_of_le hk)
    rw [Relay.after, after_eq_of_work hleast hk] at hnext
    exact hnext
  obtain ⟨⟨i, hi, hsend⟩, j, hj, hreceive⟩ := hfair n
  have hsent := hmoved i hi
  have hreceived := hmoved j hj
  rw [hsend] at hsent
  rw [hreceive] at hreceived
  exact (hawake.after moves n).ending_of_still hsent hreceived h

theorem Awake.exists_done (hawake : m.Awake) {moves : Nat → Move} (hfair : Fair moves)
    (reader : Reader σ) (n : Nat) : ∃ k ≥ n, (m.after reader moves k).ending? ≠ none := by
  induction hwork : (m.after reader moves n).work using Nat.strongRecOn generalizing n with
  | ind w ih =>
      by_cases hdone : (m.after reader moves n).ending? = none
      · obtain ⟨k, hk, hless⟩ := hawake.exists_work_lt hfair hdone
        obtain ⟨j, hj, hend⟩ := ih _ (hwork ▸ hless) k rfl
        exact ⟨j, Nat.le_trans hk hj, hend⟩
      · exact ⟨n, Nat.le_refl n, hdone⟩

/-- Whether the reader took the channel for read to its end while the source had more to send. -/
def IsCutShort (m : Relay σ) : Prop :=
  m.ending? = some .exhausted ∧ m.pending ≠ []

/-- Each item of a listing takes its source two moves and its reader three, if they take turns. -/
def handOver (n : Nat) : List Move :=
  (List.replicate n [.send, .send, .receive, .receive, .receive]).flatten

/-- The reader looks, the reading is cancelled, the source looks, and then the reader finds nothing
in the channel. -/
def breakIn : List Move :=
  [.receive, .cancel, .send, .receive, .receive, .receive]

theorem move_handOver {capacity : Nat} (hroom : 0 < capacity) (rest : List Item) {sent : List Item}
    {t : σ} (hread : (reader.readAll t sent).2 = .exhausted) :
    (handOver sent.length).foldl (move reader)
        ⟨capacity, sent ++ rest, .looking, [], .looking, t, false⟩ =
      ⟨capacity, rest, .looking, [], .looking, (reader.readAll t sent).1, false⟩ := by
  induction sent generalizing t with
  | nil => rfl
  | cons item sent ih =>
      by_cases hc : reader.isCancelled t = true
      · rw [Reader.readAll_of_cancelled hc] at hread
        cases hread
      have hgo : (reader.receive t item).2 = true := by
        by_contra hgo
        rw [Reader.readAll_cons hc, if_neg hgo] at hread
        cases hread
      rw [Reader.readAll_cons hc, if_pos hgo] at hread ⊢
      rw [← ih hread]
      have hsource : SourcePhase.wokenIf (reader.isCancelled (reader.receive t item).1) .looking =
          .looking := by
        cases reader.isCancelled (reader.receive t item).1 <;> rfl
      simp [handOver, List.replicate_succ, move, send, receive, isCancelled,
        Bool.eq_false_iff.mpr hc, hgo, hroom, ReaderPhase.isOpen, ReaderPhase.woken,
        SourcePhase.woken, hsource]

theorem move_breakIn (capacity : Nat) {rest : List Item} (hrest : rest ≠ []) {t : σ}
    (hcalm : reader.isCancelled t = false) :
    let m := breakIn.foldl (move reader) ⟨capacity, rest, .looking, [], .looking, t, false⟩
    m.IsCutShort ∧ m.pending = rest := by
  simp [breakIn, move, send, receive, cancel, leave, isCancelled, hcalm, IsCutShort, ending?, hrest,
    ReaderPhase.isOpen, ReaderPhase.woken, SourcePhase.woken]

def scheduleOf (moves : List Move) (n : Nat) : Move :=
  moves.getD n .receive

theorem after_scheduleOf (reader : Reader σ) (m : Relay σ) (moves : List Move) :
    m.after reader (scheduleOf moves) moves.length = moves.foldl (move reader) m := by
  have hfirst : ∀ n ≤ moves.length,
      m.after reader (scheduleOf moves) n = (moves.take n).foldl (move reader) m := by
    intro n hn
    induction n with
    | zero => rfl
    | succ n ih =>
        rw [after, ih (Nat.le_of_succ_le hn), List.take_add_one, List.foldl_append, scheduleOf,
          List.getD_eq_getElem?_getD, List.getElem?_eq_getElem hn]
        rfl
  rw [hfirst _ (Nat.le_refl _), List.take_length]

/-- A reading can be cut short after any part of the items that its reader takes. -/
theorem exists_cutShort (capacity : Nat) {sent rest : List Item} (hrest : rest ≠ [])
    (hread : (reader.readAll s sent).2 = .exhausted) :
    ∃ moves n, ((start capacity (sent ++ rest) s).after reader moves n).IsCutShort ∧
      ((start capacity (sent ++ rest) s).after reader moves n).pending = rest := by
  let moves := handOver sent.length ++ breakIn
  refine ⟨scheduleOf moves, moves.length, ?_⟩
  have hroom := (awake_start capacity (sent ++ rest) s).hasRoom
  rw [start] at hroom ⊢
  rw [after_scheduleOf, List.foldl_append, move_handOver hroom rest hread]
  exact move_breakIn _ hrest (reader.not_isCancelled_of_readAll s sent hread)

end Relay

namespace Listing

variable {σ ε : Type} {hook : Hook σ ε} {items : List Item} {s : σ}

/-- What a reading answers, and in which state, that takes the repositories in their order until the
hook refuses one: everything that was listed, or what the hook refused first. -/
inductive InOrder (hook : Hook σ ε) (items : List Item) (s : σ) : Except ε Listing × σ → Prop
  | accepted {t : σ} (hall : (ofItems items).repos.forM hook s = (.ok (), t)) :
      InOrder hook items s (.ok (ofItems items), t)
  | refused {k : Nat} {repo : Repo} {u t : σ} {e : ε}
      (hrepo : (ofItems items).repos[k]? = some repo)
      (hbefore : ((ofItems items).repos.take k).forM hook s = (.ok (), u))
      (hrefused : hook repo u = (.error e, t)) : InOrder hook items s (.error e, t)

variable {isCancelled : σ → Bool} {cancelled : ε}

theorem ofItems_ok (repo : Repo) (items : List Item) :
    (ofItems (.ok repo :: items)).repos = repo :: (ofItems items).repos := rfl

theorem ofItems_error (e : SourceError) (items : List Item) :
    (ofItems (.error e :: items)).repos = (ofItems items).repos := rfl

/-- A reading that takes the items one after the other is cancelled, or its hook takes every
repository, or it stops at the first one that its hook refuses. -/
theorem readAll_repos (hook : Hook σ ε) (isCancelled : σ → Bool) (items : List Item)
    (p : Progress σ ε) (hp : p.failure = none) :
    let q := (collector hook isCancelled).readAll p items
    q.2 = .cancelled ∨
      (q.1.failure = none ∧ (ofItems items).repos.forM hook p.state = (.ok (), q.1.state)) ∨
      ∃ e, q.2 = .stopped ∧ q.1.failure = some e ∧ ∃ k repo u,
        (ofItems items).repos[k]? = some repo ∧
        ((ofItems items).repos.take k).forM hook p.state = (.ok (), u) ∧
        hook repo u = (.error e, q.1.state) := by
  induction items generalizing p with
  | nil => exact .inr (.inl ⟨hp, rfl⟩)
  | cons item items ih =>
      by_cases hc : (collector hook isCancelled).isCancelled p = true
      · rw [Reader.readAll_of_cancelled hc]
        exact .inl rfl
      · rw [Reader.readAll_cons hc]
        cases item with
        | ok repo =>
            rw [ofItems_ok]
            cases hrun : hook repo p.state with
            | mk r t =>
                cases r with
                | ok v =>
                    rw [receive_of_taken hrun, if_pos rfl]
                    rcases ih ⟨t, ⟨p.listing.repos ++ [repo], p.listing.errors⟩, p.failure⟩ hp with
                      hstop | ⟨hnone, hall⟩ |
                      ⟨e, hstopped, hsome, k, refused, u, hrepo, hbefore, hrefused⟩
                    · exact .inl hstop
                    · exact .inr (.inl ⟨hnone, (Step.forM_of_ok hrun).trans hall⟩)
                    · exact .inr (.inr ⟨e, hstopped, hsome, k + 1, refused, u, hrepo,
                        (Step.forM_of_ok hrun).trans hbefore, hrefused⟩)
                | error e =>
                    rw [receive_of_refused hrun, if_neg Bool.false_ne_true]
                    exact .inr (.inr ⟨e, rfl, rfl, 0, repo, p.state, rfl, rfl, hrun⟩)
        | error e =>
            rw [receive_failure, if_pos rfl, ofItems_error]
            exact ih _ hp

section Answer

variable {m : Relay (Progress σ ε)}

theorem answer_of_cancelled (h : m.ending? = some .cancelled) :
    answer cancelled m = (.error cancelled, m.state.state) := by
  rw [answer, h]

theorem answer_of_refused {ending : Ending} {e : ε} (h : m.ending? = some ending)
    (hending : ending ≠ .cancelled) (hfailure : m.state.failure = some e) :
    answer cancelled m = (.error e, m.state.state) := by
  rw [answer, h, hfailure]
  cases ending with
  | exhausted => rfl
  | stopped => rfl
  | cancelled => exact absurd rfl hending

theorem answer_of_accepted {ending : Ending} (h : m.ending? = some ending)
    (hending : ending ≠ .cancelled) (hfailure : m.state.failure = none) :
    answer cancelled m = (.ok m.state.listing, m.state.state) := by
  rw [answer, h, hfailure]
  cases ending with
  | exhausted => rfl
  | stopped => rfl
  | cancelled => exact absurd rfl hending

theorem answer_inOrder {ending : Ending} (h : m.ending? = some ending)
    (hread : (collector hook isCancelled).readAll ⟨s, empty, none⟩ items = (m.state, ending)) :
    InOrder hook items s (answer cancelled m) ∨
      (answer cancelled m).1 = .error cancelled ∧ isCancelled (answer cancelled m).2 = true := by
  have hrepos := readAll_repos hook isCancelled items ⟨s, empty, none⟩ rfl
  have hstop := Reader.isCancelled_of_readAll (collector hook isCancelled) ⟨s, empty, none⟩ items
  have hlisting := readAll_collector hook isCancelled ⟨s, empty, none⟩ items
  rw [hread] at hrepos hstop hlisting
  by_cases hending : ending = .cancelled
  · subst hending
    rw [answer_of_cancelled h]
    exact .inr ⟨rfl, hstop rfl⟩
  · refine .inl ?_
    rcases hrepos.resolve_left hending with
      ⟨hnone, hall⟩ | ⟨e, -, hsome, k, repo, u, hrepo, hbefore, hrefused⟩
    · rw [answer_of_accepted h hending hnone, hlisting hnone hending]
      exact .accepted hall
    · rw [answer_of_refused h hending hsome]
      exact .refused hrepo hbefore hrefused

theorem answer_exhausted (cancelled : ε) (h : m.ending? = some .exhausted) {taken : List Item}
    (hread : (collector hook isCancelled).readAll ⟨s, empty, none⟩ taken = (m.state, .exhausted)) :
    (ofItems taken).repos.forM hook s = (.ok (), m.state.state) ∧
      answer cancelled m = (.ok (ofItems taken), m.state.state) := by
  have hrepos := readAll_repos hook isCancelled taken ⟨s, empty, none⟩ rfl
  have hlisting := readAll_collector hook isCancelled ⟨s, empty, none⟩ taken
  rw [hread] at hrepos hlisting
  rcases hrepos with hstop | ⟨hnone, hall⟩ | ⟨e, hstopped, -⟩
  · cases hstop
  · refine ⟨hall, ?_⟩
    rw [answer_of_accepted h nofun hnone, hlisting hnone nofun]
    rfl
  · cases hstopped

end Answer

/-- Whether this answers as a reading is to: in order, or with its cancellation if there was one. -/
def IsDue (hook : Hook σ ε) (isCancelled : σ → Bool) (cancelled : ε) (items : List Item) (s : σ)
    (wasTold : Prop) (r : Except ε Listing × σ) : Prop :=
  InOrder hook items s r ∨ r.1 = .error cancelled ∧ (isCancelled r.2 = true ∨ wasTold)

/-- All that holds of a reading that is done. It answers as it is to unless it was cut short, which
takes a cancellation; then it answers in order what had been sent. -/
structure Answered (hook : Hook σ ε) (isCancelled : σ → Bool) (cancelled : ε) (items : List Item)
    (s : σ) (wasTold : Prop) (m : Relay (Progress σ ε)) : Prop where
  buffer : m.buffer = []
  source : m.source = .gone
  isDue_iff : IsDue hook isCancelled cancelled items s wasTold (answer cancelled m) ↔ ¬m.IsCutShort
  cutShort : m.IsCutShort → wasTold ∧
    ∃ sent, sent ++ m.pending = items ∧ InOrder hook sent s (answer cancelled m)
  whole : ¬wasTold → ∀ capacity ≤ Relay.widest,
    collect? hook isCancelled cancelled capacity items s = some (answer cancelled m)

theorem length_ofItems (items : List Item) :
    (ofItems items).repos.length + (ofItems items).errors.length = items.length := by
  induction items with
  | nil => rfl
  | cons item items ih =>
      cases item with
      | ok repo =>
          simp only [ofItems, List.filterMap_cons, Except.toOption, List.length_cons] at ih ⊢
          omega
      | error e =>
          simp only [ofItems, List.filterMap_cons, Except.toOption, List.length_cons] at ih ⊢
          omega

theorem not_isDue_of_part {sent rest : List Item} (hitems : sent ++ rest = items)
    (hrest : rest ≠ []) {wasTold : Prop} {t : σ} :
    ¬IsDue hook isCancelled cancelled items s wasTold (.ok (ofItems sent), t) := by
  rintro (hinOrder | ⟨herror, -⟩)
  · generalize hanswer : ((.ok (ofItems sent), t) : Except ε Listing × σ) = r at hinOrder
    cases hinOrder with
    | accepted =>
        have hsame : ofItems sent = ofItems items := Except.ok.inj (congrArg Prod.fst hanswer)
        have hlength := length_ofItems items
        rw [← hsame, length_ofItems, ← hitems, List.length_append] at hlength
        exact hrest (List.length_eq_zero_iff.mp (by omega))
    | refused => cases hanswer
  · cases herror

theorem answered_of_ends {m : Relay (Progress σ ε)} {ending : Ending} {wasTold : Prop}
    (hending : m.ending? = some ending) (hbuffer : m.buffer = []) (hgone : m.source = .gone)
    (htold : m.isTold = true → wasTold)
    (hends : m.Ends (collector hook isCancelled) ⟨s, empty, none⟩ items ending) :
    Answered hook isCancelled cancelled items s wasTold m := by
  cases hends with
  | whole hread hall =>
      have hwhole : ¬m.IsCutShort := fun hcut =>
        hcut.2 (hall (Option.some.inj (hending.symm.trans hcut.1)))
      refine ⟨hbuffer, hgone, iff_of_true ?_ hwhole, fun hcut => absurd hcut hwhole, ?_⟩
      · rcases answer_inOrder hending hread with hinOrder | ⟨herror, hstop⟩
        · exact .inl hinOrder
        · exact .inr ⟨herror, .inl hstop⟩
      · intro _ capacity hfits
        obtain ⟨hstate, hend⟩ := Relay.run_start (collector hook isCancelled) capacity items
          ⟨s, empty, none⟩
        rw [hread] at hstate hend
        rw [collect?, if_pos hfits, collect, answer, answer, hstate, hend, hending]
  | told hisTold hcancelled =>
      rw [hcancelled] at hending
      have hwhole : ¬m.IsCutShort := fun hcut => by cases hending.symm.trans hcut.1
      refine ⟨hbuffer, hgone, iff_of_true ?_ hwhole, fun hcut => absurd hcut hwhole,
        fun hnever => absurd (htold hisTold) hnever⟩
      rw [answer_of_cancelled hending]
      exact .inr ⟨rfl, .inr (htold hisTold)⟩
  | cutShort hisTold hexhausted _ hleft taken hitems hread =>
      rw [hexhausted] at hending
      obtain ⟨hall, hanswer⟩ := answer_exhausted cancelled hending hread
      refine ⟨hbuffer, hgone, iff_of_false ?_ fun hwhole => hwhole ⟨hending, hleft⟩, fun _ => ?_,
        fun hnever => absurd (htold hisTold) hnever⟩
      · rw [hanswer]
        exact not_isDue_of_part hitems hleft
      · rw [hanswer]
        exact ⟨htold hisTold, taken, hitems, .accepted hall⟩

/-- No channel is wider than the widest. Otherwise, whatever order the two sides of a listing move
in, and whenever it is cancelled: once it is done its channel is empty, its source has ended,
nothing more happens, and it answers as it is to unless it was cut short. Under a fair schedule it
gets done. It can be cut short after any part of the items that its hook takes. -/
theorem answers_in_order_iff (hook : Hook σ ε) (isCancelled : σ → Bool) (cancelled : ε)
    (capacity : Nat) (items : List Item) (s : σ) :
    let reader := collector hook isCancelled
    let relay := (Relay.start capacity items (⟨s, empty, none⟩ : Progress σ ε)).after reader
    (collect? hook isCancelled cancelled capacity items s = none ↔ Relay.widest < capacity) ∧
    (∀ moves, (Fair moves → ∃ n, (relay moves n).ending? ≠ none) ∧
      ∀ n, (relay moves n).ending? ≠ none →
        Answered hook isCancelled cancelled items s (∃ k < n, moves k = .cancel) (relay moves n) ∧
        ∀ k ≥ n, (relay moves n).Closed (relay moves k)) ∧
    ∀ sent rest, sent ++ rest = items → rest ≠ [] →
      (reader.readAll ⟨s, empty, none⟩ sent).2 = .exhausted →
        ∃ moves n, (relay moves n).IsCutShort ∧ (relay moves n).pending = rest := by
  intro reader relay
  refine ⟨?_, fun moves => ⟨fun hfair => ?_, fun n hdone => ?_⟩, ?_⟩
  · rw [collect?]
    split
    · rename_i hfits
      exact iff_of_false nofun (Nat.not_lt_of_le hfits)
    · rename_i hwide
      exact iff_of_true rfl (Nat.lt_of_not_le hwide)
  · obtain ⟨n, -, hdone⟩ := (Relay.awake_start capacity items _).exists_done hfair reader 0
    exact ⟨n, hdone⟩
  · obtain ⟨ending, hending⟩ := Option.ne_none_iff_exists'.mp hdone
    obtain ⟨hends, hbuffer, hgone⟩ :=
      ((Relay.heads_start reader capacity items ⟨s, empty, none⟩).after moves n).ends_of_ending
        hending
    refine ⟨answered_of_ends hending hbuffer hgone (fun h => ?_) hends, fun k hk => ?_⟩
    · exact (Relay.isTold_after moves n h).resolve_left Bool.noConfusion
    · exact Relay.closed_after (Relay.phase_of_ending hending) hgone hk
  · rintro sent rest rfl hrest hread
    exact Relay.exists_cutShort capacity hrest hread

namespace Sample

/-- Notes the names of the repositories, and refuses one of them. -/
def watch (refused : String) : Hook (List String) String := fun repo => do
  modify fun seen => seen ++ [repo.name]
  if repo.name = refused then throw "refused"

def listed : List Item :=
  [.ok { Repo.blank with name := "alpha" }, .error (.network "down"),
    .ok { Repo.blank with name := "beta" }, .ok { Repo.blank with name := "gamma" }]

/-- The two sides take turns, and one turn goes to a cancellation. -/
def interrupted (turn n : Nat) : Move :=
  if n = turn then .cancel else if n % 2 = 0 then .send else .receive

def relay (refused : String) (turn n : Nat) : Relay (Progress (List String) String) :=
  (Relay.start 0 listed ⟨[], empty, none⟩).after (collector (watch refused) fun _ => false)
    (interrupted turn) n

theorem fair_interrupted (turn : Nat) : Fair (interrupted turn) := by
  intro n
  refine ⟨⟨2 * (n + turn + 1), by omega, ?_⟩, 2 * (n + turn + 1) + 1, by omega, ?_⟩
  · unfold interrupted
    rw [if_neg (by omega), if_pos (by omega)]
  · unfold interrupted
    rw [if_neg (by omega), if_neg (by omega)]

end Sample

/-- The hook refuses the second repository and does not see the third one. If the reading is
cancelled in time, it does not see the second one either. -/
theorem answers_in_order_iff_watched :
    Fair (Sample.interrupted 100) ∧ (∃ n, (Sample.relay "beta" 100 n).ending? ≠ none) ∧
      InOrder (Sample.watch "beta") Sample.listed [] (.error "refused", ["alpha", "beta"]) ∧
      answer "cancelled" (Sample.relay "beta" 6 30) = (.error "cancelled", ["alpha"]) ∧
      (Sample.relay "beta" 6 30).buffer = [] ∧ (Sample.relay "beta" 6 30).source = .gone := by
  obtain ⟨-, hevery, -⟩ := answers_in_order_iff (Sample.watch "beta") (fun _ => false) "cancelled" 0
    Sample.listed []
  obtain ⟨hends, hanswers⟩ := hevery (Sample.interrupted 100)
  obtain ⟨-, hcancelled⟩ := hevery (Sample.interrupted 6)
  have hfair := Sample.fair_interrupted 100
  refine ⟨hfair, hends hfair, ?_, by decide, ?_⟩
  · have hanswer : answer "cancelled" (Sample.relay "beta" 100 30) =
        (.error "refused", ["alpha", "beta"]) := by
      decide
    have hdue := (hanswers 30 (by decide)).1.isDue_iff.mpr fun hcut =>
      hcut.2 (by decide)
    rw [← hanswer]
    refine hdue.resolve_right fun ⟨herror, _⟩ => ?_
    have hsame : (.error "refused" : Except String Listing) = .error "cancelled" :=
      (congrArg Prod.fst hanswer).symm.trans herror
    exact absurd hsame (by decide)
  · have hanswered := (hcancelled 30 (by decide)).1
    exact ⟨hanswered.buffer, hanswered.source⟩

/-- The reading is cancelled when it has one repository of three, and answers that there is no
other. Through a channel that is too wide there is no reading at all. -/
theorem answers_cut_short :
    let m := (Relay.start 4 Sample.listed ⟨[], empty, none⟩).after
      (collector (Sample.watch "none") fun _ => false)
      (Relay.scheduleOf (Relay.handOver 1 ++ Relay.breakIn)) 11
    m.ending? ≠ none ∧
      answer "cancelled" m = (.ok ⟨[{ Repo.blank with name := "alpha" }], []⟩, ["alpha"]) ∧
      ¬IsDue (Sample.watch "none") (fun _ => false) "cancelled" Sample.listed [] True
        (answer "cancelled" m) ∧
      collect? (Sample.watch "none") (fun _ => false) "cancelled" 2305843009213693952 Sample.listed
        [] = none := by
  intro m
  have hanswer : answer "cancelled" m =
      (.ok (ofItems (Sample.listed.take 1)), ["alpha"]) := by
    decide
  refine ⟨by decide, hanswer, ?_, if_neg (by decide)⟩
  rw [hanswer]
  exact not_isDue_of_part (List.take_append_drop 1 Sample.listed) nofun

end Listing

end RepoCatalog
