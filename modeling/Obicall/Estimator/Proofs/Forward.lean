/-
Whether the filter's time can go backwards.

The code subtracts first and looks at the sign of the difference. As long
as the true difference fits an `int64_t` that is the sign of the true one,
so a call succeeds only forwards and the filter's time never falls
(`predict_forward`, `last_le_call`). A difference that does not fit is
out of the type before anything is checked, and read as it wraps, it has
the other sign: with no gap limit the filter goes back by centuries
(`backwards_when_wrapped`).
-/
import Obicall.Core.Clock
import Obicall.Core.Estimator
import Obicall.Lib.Elapsed
import Obicall.Lib.Run

namespace Obicall

open DoubleArith Lib.Elapsed Lib.Run

variable {F : Type} [DoubleArith F]

-- ============================================================= statement

/-- The time a call is for. -/
def KalmanCall.timeNs : KalmanCall F → Int64
  | .predict timeNs => timeNs
  | .updatePosition timeNs _ _ _ => timeNs

/-- A call's numbers pass the checks that come first. -/
def KalmanCall.finite : KalmanCall F → Bool
  | .predict _ => true
  | .updatePosition _ zx zy measCov =>
      isFinite zx && isFinite zy && measCov.toList.all isFinite

/-- What a call returns, and the filter it leaves. -/
def KalmanState.answer (params : KalmanParams F) (s : KalmanState F) :
    KalmanCall F → Status × KalmanState F
  | .predict timeNs => obicallKalmanPredict s params timeNs
  | .updatePosition timeNs zx zy measCov =>
      obicallKalmanUpdatePosition s params timeNs zx zy measCov

def KalmanState.next (params : KalmanParams F) (s : KalmanState F)
    (c : KalmanCall F) : KalmanState F :=
  (s.answer params c).2

/-- The call gets as far as the subtraction. -/
def KalmanState.Subtracts (s : KalmanState F) (c : KalmanCall F) : Prop :=
  c.finite = true ∧ s.initialized = true ∧ c.timeNs ≠ s.lastUpdateTimeNs

/-- The times are less than 2^63 ns apart. -/
def KalmanState.Near (s : KalmanState F) (c : KalmanCall F) : Prop :=
  -2 ^ 63 ≤ c.timeNs.toInt - s.lastUpdateTimeNs.toInt
    ∧ c.timeNs.toInt - s.lastUpdateTimeNs.toInt < 2 ^ 63

/-- A call at its time: it does not subtract beyond the type, does not
succeed backwards, and does not take the filter back. -/
structure KalmanState.KeepsTime (params : KalmanParams F)
    (s : KalmanState F) (c : KalmanCall F) : Prop where
  fits : s.Subtracts c → (c.timeNs - s.lastUpdateTimeNs).toInt
    = c.timeNs.toInt - s.lastUpdateTimeNs.toInt
  forward : (s.answer params c).1 = .ok → s.lastUpdateTimeNs ≤ c.timeNs
  notBack : s.lastUpdateTimeNs ≤ (s.next params c).lastUpdateTimeNs

/-- All calls of a run are, so the filter's time never falls. -/
structure TimeKept (params : KalmanParams F) (s : KalmanState F)
    (cs : List (KalmanCall F)) : Prop where
  calls : Meets (KalmanState.next params) (KalmanState.KeepsTime params) s cs
  nondecreasing : ∀ m n, m ≤ n →
    (run (KalmanState.next params) s (cs.take m)).lastUpdateTimeNs
      ≤ (run (KalmanState.next params) s (cs.take n)).lastUpdateTimeNs

-- ================================================================== calls

variable [ClockArith F] {params : KalmanParams F} {s : KalmanState F}

/-- With a difference that is the true one, only the present and the
future are accepted. -/
theorem predict_forward {timeNs : Int64}
    (hfits : s.initialized = true → timeNs ≠ s.lastUpdateTimeNs →
      (timeNs - s.lastUpdateTimeNs).toInt
        = timeNs.toInt - s.lastUpdateTimeNs.toInt)
    (hok : (obicallKalmanPredict s params timeNs).1 = .ok) :
    s.lastUpdateTimeNs ≤ timeNs := by
  by_contra hback
  have hlt := Int64.lt_iff_toInt_lt.mp (Int64.not_le.mp hback)
  have hne : timeNs ≠ s.lastUpdateTimeNs := by
    rintro rfl
    exact hback (Int64.le_refl _)
  rw [obicallKalmanPredict] at hok
  cases hinit : s.initialized with
  | false =>
      rw [hinit] at hok
      cases hok
  | true =>
      have hneg : lt (seconds (timeNs - s.lastUpdateTimeNs) : F) 0.0 = true := by
        refine ClockArith.seconds_neg _ ?_
        rw [hfits hinit hne]
        omega
      rw [hinit, if_neg (by decide), if_neg hne] at hok
      dsimp only at hok
      rw [show (ofInt64 (timeNs - s.lastUpdateTimeNs) / 1e9 : F)
        = seconds (timeNs - s.lastUpdateTimeNs) from rfl, hneg] at hok
      cases hok

omit [ClockArith F] in
/-- A call that subtracts successfully moves the filter to its time; every
other one leaves it. -/
theorem answer_cases (params : KalmanParams F) (s : KalmanState F)
    (c : KalmanCall F) :
    (c.finite = true ∧ (obicallKalmanPredict s params c.timeNs).1 = .ok
        ∧ (s.next params c).lastUpdateTimeNs = c.timeNs)
      ∨ (s.answer params c).1 ≠ .ok ∧ s.next params c = s := by
  have houtcome := obicallKalmanPredict_outcome s params c.timeNs
  cases c with
  | predict timeNs =>
      by_cases hok : (obicallKalmanPredict s params timeNs).1 = .ok
      · rw [KalmanCall.timeNs] at houtcome
        simp only [hok, if_true] at houtcome
        exact .inl ⟨rfl, hok, houtcome.2⟩
      · rw [KalmanCall.timeNs] at houtcome
        simp only [hok, if_false] at houtcome
        exact .inr ⟨hok, houtcome⟩
  | updatePosition timeNs zx zy measCov =>
      rw [KalmanState.next, KalmanState.answer, obicallKalmanUpdatePosition]
      have hrefused : Status.errValidationNonFinite ≠ .ok := by decide
      split
      next => exact .inr ⟨hrefused, rfl⟩
      next hz =>
        split
        next => exact .inr ⟨hrefused, rfl⟩
        next hcov =>
          split
          next s₁ heq =>
            rw [KalmanCall.timeNs, heq] at houtcome
            refine .inl ⟨?_, congrArg Prod.fst heq, ?_⟩
            · simp only [Bool.or_eq_true, Bool.not_eq_true', not_or,
                Bool.not_eq_false] at hz hcov
              rw [KalmanCall.finite, hz.1, hz.2, hcov]
              rfl
            · exact (correct_frame s₁ zx zy measCov).2.trans houtcome.2
          next st s₁ hne heq =>
            rw [KalmanCall.timeNs, heq] at houtcome
            dsimp only at houtcome
            rw [if_neg hne] at houtcome
            exact .inr ⟨hne, houtcome⟩

/-- A call keeps time exactly when it does not subtract beyond the type. -/
theorem keepsTime_iff (c : KalmanCall F) :
    s.KeepsTime params c ↔ (s.Subtracts c → s.Near c) := by
  constructor
  · intro h hsub
    have hlo := (c.timeNs - s.lastUpdateTimeNs).le_toInt
    have hhi := (c.timeNs - s.lastUpdateTimeNs).toInt_lt
    rw [h.fits hsub] at hlo hhi
    exact ⟨hlo, hhi⟩
  · intro hnear
    have hfits : s.Subtracts c → (c.timeNs - s.lastUpdateTimeNs).toInt
        = c.timeNs.toInt - s.lastUpdateTimeNs.toInt := fun hsub =>
      toInt_sub_of_fits (hnear hsub).1 (hnear hsub).2
    have hcases := answer_cases params s c
    have hforward : c.finite = true →
        (obicallKalmanPredict s params c.timeNs).1 = .ok →
        s.lastUpdateTimeNs ≤ c.timeNs := fun hfinite =>
      predict_forward fun hinit hne => hfits ⟨hfinite, hinit, hne⟩
    refine ⟨hfits, fun hok => ?_, ?_⟩
    · rcases hcases with ⟨hfinite, hpredict, -⟩ | ⟨hno, -⟩
      · exact hforward hfinite hpredict
      · exact (hno hok).elim
    · rcases hcases with ⟨hfinite, hpredict, htime⟩ | ⟨-, hsame⟩
      · rw [htime]
        exact hforward hfinite hpredict
      · rw [hsame]
        exact Int64.le_refl _

/-- Over a run the filter's time is kept exactly when no call that gets as
far as the subtraction is for a time 2^63 ns or more from the
filter's. -/
theorem timeKept_iff (params : KalmanParams F) (s : KalmanState F)
    (cs : List (KalmanCall F)) :
    TimeKept params s cs
      ↔ Meets (KalmanState.next params) (fun s c => s.Subtracts c → s.Near c)
        s cs := by
  have hcalls : Meets (KalmanState.next params)
      (KalmanState.KeepsTime params) s cs
      ↔ Meets (KalmanState.next params)
        (fun s c => s.Subtracts c → s.Near c) s cs :=
    meets_congr (fun _ c => keepsTime_iff c) s cs
  rw [← hcalls]
  constructor
  · exact TimeKept.calls
  · refine fun h => ⟨h, fun m n hmn => ?_⟩
    exact run_mono_of_meets (f := KalmanState.lastUpdateTimeNs)
      (R := (· ≤ ·)) Int64.le_refl (fun _ _ _ => Int64.le_trans)
      (fun s c hc => hc.notBack) h hmn

-- =============================================================== samples

/-- The defaults, with the gap limit disabled. -/
def anyGap : KalmanParams Binary64 := ⟨0.05, 0.1, 10.0, 10.0, 0.0⟩

/-- A prediction half a second back is refused, and the fix after it moves
the filter on. -/
theorem timeKept_refused :
    TimeKept anyGap (obicallKalmanInit anyGap 0.0 0.0 1000000000)
      [.predict 500000000,
        .updatePosition 1500000000 1.0 2.0 #v[0.1, 0.0, 0.0, 0.1]] := by
  refine (timeKept_iff _ _ _).mpr ⟨fun _ => ?_, fun _ => ?_, trivial⟩
  · exact ⟨by decide +kernel, by decide +kernel⟩
  · exact ⟨by decide +kernel, by decide +kernel⟩

/-- One nanosecond after zero, a prediction to the earliest time there is
succeeds and takes the filter there. -/
theorem backwards_when_wrapped :
    let s := obicallKalmanInit anyGap 0.0 0.0 1
    let c : KalmanCall Binary64 := .predict Int64.minValue
    (s.answer anyGap c).1 = .ok
      ∧ (s.next anyGap c).lastUpdateTimeNs < s.lastUpdateTimeNs
      ∧ ¬ TimeKept anyGap s [c] := by
  intro s c
  have hok : (s.answer anyGap c).1 = .ok := by decide +kernel
  have hback : (s.next anyGap c).lastUpdateTimeNs < s.lastUpdateTimeNs := by
    decide +kernel
  refine ⟨hok, hback, fun h => ?_⟩
  exact Int64.not_le.mpr hback h.calls.1.notBack

end Obicall
