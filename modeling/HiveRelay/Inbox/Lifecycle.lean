import HiveRelay.Inbox.Visibility
import HiveRelay.Lib.Advance

/-!
# The life of a spend

No frame removes a spend or the cached result of a close. A spend keeps what it was bound to, and its
state only advances: what was acknowledged or returned once is what every replay finds.

## Main definitions

* `SpendEntry.Advances` — what a frame makes of a spend

## Main results

* `inbox_spends_settle` — a spend settles once
-/

set_option linter.unusedSectionVars false

namespace HiveRelay.Inbox

open OrderedMap Relation

variable {B : Type} [DecidableEq B] [Zero B] {cfg : Config B} {s s' : State B} {frame : Frame B}

/-- What one frame makes of the state of a spend. -/
inductive SpendState.Advances : SpendState B → SpendState B → Prop
  | ack (terms : AppendTerms B) (signature commitment : B) :
      Advances (.provisional terms) (.appended terms signature commitment)
  | expireAppend (terms : AppendTerms B) (signature commitment : B) (epoch : ℕ) :
      Advances (.appended terms signature commitment) (.expiredAppend terms signature commitment epoch)
  | read (operation : Operation) (result : ReadResult B) :
      Advances (.reserved operation) (.read operation result 1)
  | expireRead (operation : Operation) (result : ReadResult B) :
      Advances (.read operation result 1) (.read operation result 3)
  | expireReserved (operation : Operation) (epoch : ℕ) :
      Advances (.reserved operation) (.terminal operation epoch)

/-- What one frame makes of a spend. -/
structure SpendEntry.Advances (e e' : SpendEntry B) : Prop where
  bound : e' = { e with state := e'.state, remainingAttempts := e'.remainingAttempts }
  attempts : e'.remainingAttempts ≤ e.remainingAttempts
  state : e.state.Advances e'.state

theorem advances_setSpend {tag : B} {e : SpendEntry B} (hi : Indexed s) (he : s.spends.get? tag = some e)
    {state : SpendState B} (h : e.state.Advances state) {attempts : ℕ} (hle : attempts ≤ e.remainingAttempts) :
    s.spends.Advances SpendEntry.Advances
      (s.spends.set e.spendTag { e with state := state, remainingAttempts := attempts }) := by
  obtain rfl := hi.spends _ _ he
  exact advances_set he ⟨rfl, hle, h⟩

theorem Step.spends (hi : Indexed s) (h : Step cfg s frame s') : s.spends.Advances SpendEntry.Advances s'.spends := by
  cases h with
  | create v hp h => exact advances_add h.fresh.spend
  | renew v record hp h => exact advances_add h.fresh.spend
  | append v record hp h => exact advances_add h.fresh.spend
  | pinRead v record hp h => exact advances_add h.fresh.spend
  | finalizeAck v spend terms record hp h =>
    exact advances_setSpend hi h.spends (h.state ▸ .ack terms _ _) le_rfl
  | expireAppend v spend terms stored hp h =>
    exact advances_setSpend hi h.spends (h.state ▸ .expireAppend terms _ _ _) le_rfl
  | finalizeRead v spend pin hp h =>
    exact advances_setSpend hi h.spends (by rw [h.state]; exact .read _ _) le_rfl
  | expireRead v spend pin hp h =>
    -- a spend that has a pin is reserved, or its result was returned and may be returned again
    obtain ⟨spend', hspend', hpinned⟩ := (hi.pins.exact v.spendTag).mp ⟨pin, h.retryPins⟩
    obtain rfl := Option.mem_unique h.spends hspend'
    simp only [State.expireRead, State.setSpend, SpendEntry.readExpired]
    cases hstate : spend.state with
    | reserved operation =>
      exact advances_setSpend hi h.spends (by rw [hstate]; exact .expireReserved operation _) (Nat.zero_le _)
    | read operation result retryState =>
      rw [hstate] at hpinned
      obtain rfl : retryState = 1 := of_decide_eq_true hpinned
      exact advances_setSpend hi h.spends (hstate ▸ .expireRead operation result) le_rfl
    | _ =>
      rw [hstate] at hpinned
      cases hpinned
  | close v record hp h | floor v hp h | gc v record hp h | policy v record hp h | integrity v hp h =>
    exact .refl _ _

theorem Step.requestResults (h : Step cfg s frame s') :
    s.requestResults.Advances (fun _ _ => False) s'.requestResults := by
  cases h with
  | close v record hp h => exact advances_add h.result
  | _ => exact .refl _ _

/-- **A spend settles once.** Along every stretch of every run, a spend is kept with everything it was
bound to; its state only advances, from a reserved read to the result that was returned or to nothing,
and from a provisional append to its acknowledgement and on to its expiry. The cached result of a
close is never replaced. -/
theorem inbox_spends_settle {pre stretch : List (Application B)} (hpre : run (frameStep cfg) (.empty B) pre = some s)
    (hrun : run (frameStep cfg) s stretch = some s') :
    s.spends.Advances SpendEntry.Advances s'.spends ∧
      ∀ key result, s.requestResults.get? key = some result → s'.requestResults.get? key = some result := by
  have hsettles : Indexed s' ∧ s.spends.Advances SpendEntry.Advances s'.spends ∧
      s.requestResults.Advances (fun _ _ => False) s'.requestResults := by
    refine run_preserves (fun s₁ => Indexed s₁ ∧ s.spends.Advances SpendEntry.Advances s₁.spends ∧
      s.requestResults.Advances (fun _ _ => False) s₁.requestResults) ?_
      ⟨(indexed_of_frames hpre).1, .refl _ _, .refl _ _⟩ hrun
    rintro s₁ m s₂ ⟨hi, hspends, hresults⟩ hm
    obtain ⟨hcanonical, hstep⟩ := step_of_frameStep hm
    exact ⟨indexed_step hi hcanonical hstep, hspends.trans (hstep.spends hi), hresults.trans hstep.requestResults⟩
  exact ⟨hsettles.2.1, fun key result hr => hsettles.2.2.final hr fun _ => id⟩

/-- The appends of the sample log stay acknowledged while the reads after them are pinned. -/
theorem inbox_spends_settle_sample : ∃ s s', run (frameStep sampleConfig) (State.empty ℕ) (sampleFrames.take 4) = some s ∧
    run (frameStep sampleConfig) s (sampleFrames.drop 4) = some s' ∧
      s.spends.Advances SpendEntry.Advances s'.spends := by
  obtain ⟨s', hs'⟩ := sampleFrames_accepted
  obtain ⟨s, hpre, hrest⟩ := run_append.mp (List.take_append_drop 4 sampleFrames ▸ hs')
  exact ⟨s, s', hpre, hrest, (inbox_spends_settle hpre hrest).1⟩

end HiveRelay.Inbox
