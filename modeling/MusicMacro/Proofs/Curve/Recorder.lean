import MusicMacro.Curve.Recorder

/-! What a recorder keeps of a curve: the points of the curve up to the limit.  If they all fit, it
ends at the finish of the curve, and else at the position that it started from. -/

namespace MusicMacro

/-- The value that is left after entries of a log, where `value` was there before them. -/
def Curve.lastValue (value : Int32) (log : List (Ticks × Int32)) : Int32 :=
  (log.getLast?.map Prod.snd).getD value

namespace Recorder

/-- The recorder with a log, and the last value of it. -/
def logged (recorder : Recorder) (log : List (Ticks × Int32)) : Recorder :=
  { recorder with value := Curve.lastValue recorder.value log, log := log.toArray }

/-- A recorder that a curve has driven which sets the values of `log` and ends at `finish`.  Within
the limit the whole log is kept.  Beyond it there is a refusal, the log is cut off at the limit, and
the recorder stands where it stood. -/
def record (recorder : Recorder) (cause : Refusal) (log : List (Ticks × Int32)) (finish : Ticks) :
    Except Refusal Unit × Recorder :=
  if recorder.limit.any (· < log.length) then
    (.error cause, recorder.logged (log.take (recorder.limit.getD 0)))
  else (.ok (), { recorder.logged log with position := finish })

/-- Sets the value, if the limit is not reached. -/
def set (cause : Refusal) (value : Int32) (recorder : Recorder) : Except Refusal Unit × Recorder :=
  if recorder.limit = some recorder.log.size then (.error cause, recorder)
  else (.ok (), { recorder with value, log := recorder.log.push (recorder.position, value) })

theorem logged_nil {recorder : Recorder} (h : recorder.log = #[]) :
    recorder.logged [] = recorder := by
  rw [logged, ← h]
  rfl

/-- One entry more for a recorder that stands at its position. -/
theorem logged_concat (recorder : Recorder) (log : List (Ticks × Int32)) (position : Ticks)
    (value : Int32) :
    { recorder.logged (log ++ [(position, value)]) with position } =
      { recorder.logged log with
        position, value, log := (recorder.logged log).log.push (position, value) } := by
  simp [logged, Curve.lastValue]

theorem set_of_full {recorder : Recorder} {log : List (Ticks × Int32)}
    (h : recorder.limit = some log.length) (cause : Refusal) (position : Ticks) (value : Int32) :
    set cause value { recorder.logged log with position } =
      (.error cause, { recorder.logged log with position }) :=
  if_pos h

theorem set_of_room {recorder : Recorder} {log : List (Ticks × Int32)}
    (h : recorder.limit ≠ some log.length) (cause : Refusal) (position : Ticks) (value : Int32) :
    set cause value { recorder.logged log with position } =
      (.ok (), { recorder.logged (log ++ [(position, value)]) with position }) := by
  rw [logged_concat]
  exact if_neg h

theorem record_of_full {recorder : Recorder} {log : List (Ticks × Int32)}
    (h : recorder.limit = some log.length) (cause : Refusal) (entry : Ticks × Int32)
    (rest : List (Ticks × Int32)) (finish : Ticks) :
    recorder.record cause (log ++ entry :: rest) finish = (.error cause, recorder.logged log) := by
  simp [record, h]

theorem record_of_fits {recorder : Recorder} {log : List (Ticks × Int32)}
    (h : recorder.limit.any (· < log.length) = false) (cause : Refusal) (finish : Ticks) :
    recorder.record cause log finish = (.ok (), { recorder.logged log with position := finish }) := by
  rw [record, h]
  rfl

theorem fits_concat {recorder : Recorder} {log : List (Ticks × Int32)}
    (h : recorder.limit.any (· < log.length) = false) (hfull : recorder.limit ≠ some log.length)
    (entry : Ticks × Int32) : recorder.limit.any (· < (log ++ [entry]).length) = false := by
  cases hlimit : recorder.limit with
  | none => rfl
  | some limit =>
    rw [hlimit] at h hfull
    simp at h hfull ⊢
    omega

theorem fits_nil (recorder : Recorder) :
    recorder.limit.any (· < ([] : List (Ticks × Int32)).length) = false := by
  cases recorder.limit <;> simp

/-- A recorder that has come so far along a curve keeps the rest of its points, up to the limit. -/
theorem followFrom_logged (recorder : Recorder) (curve : Curve) (position : Ticks)
    {log : List (Ticks × Int32)} (h : recorder.limit.any (· < log.length) = false) :
    followFrom recorder.position curve { recorder.logged log with position } =
      recorder.record (.port closed) (log ++ curve.points) curve.finish := by
  induction curve generalizing position log with
  | stop last =>
    rw [Curve.points, Curve.finish, List.append_nil, record_of_fits h]
    rfl
  | point there value next ih =>
    rw [followFrom, Curve.points, Curve.finish]
    by_cases hfull : recorder.limit = some log.length
    · have hback : there + -(there - recorder.position) = recorder.position := by grind
      rw [record_of_full hfull, if_pos (by simpa [logged] using hfull), hback]
      rfl
    · have hnext := ih () there (fits_concat h hfull (there, value))
      rw [logged_concat, List.append_assoc] at hnext
      rw [if_neg (by simpa [logged] using hfull)]
      exact hnext

theorem follow_eq_record {recorder : Recorder} (h : recorder.log = #[]) (curve : Curve) :
    recorder.follow curve = recorder.record (.port closed) curve.points curve.finish := by
  have hrun := recorder.followFrom_logged curve recorder.position recorder.fits_nil
  rw [logged_nil h, List.nil_append] at hrun
  exact hrun

end Recorder

end MusicMacro
