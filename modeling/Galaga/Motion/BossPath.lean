import Galaga.Motion.Boss

/-! # The path of a boss that meets no shot

Without Space the boss runs along a triangle wave between its two overruns,
columns 615 and 1019, in steps of five columns. On its way back from the right
it drops by ten rows at three ticks, on its way back from the left at two. The
phase counts ticks from an imaginary start at the left overrun, so the boss
comes on at phase 65.
-/

namespace Galaga

namespace BossPath

/-- Steps from the left overrun, a triangle wave of period 248 and amplitude
124. -/
def steps (phase : ℕ) : ℕ :=
  if phase % 248 ≤ 124 then phase % 248 else 248 - phase % 248

/-- Fifty rows for each period, of which the wall on the left gives the first
two tens and the wall on the right the others. -/
def descent (phase : ℕ) : ℕ :=
  50 * (phase / 248) + (if phase % 248 < 1 then 0 else 10) + (if phase % 248 < 3 then 0 else 10) +
    10 * min 3 (phase % 248 - 124)

theorem steps_le (phase : ℕ) : steps phase ≤ 124 := by
  unfold steps
  split <;> omega

/-- The rows of a tick: ten where the tick before found the boss at a wall. -/
def drop (phase : ℕ) : ℕ :=
  if phase % 248 = 0 then 10
  else if phase % 248 = 2 then 10
  else if 124 ≤ phase % 248 ∧ phase % 248 < 127 then 10
  else 0

/-- A phase on, either within the period or into the next. -/
theorem succ_cases (phase : ℕ) :
    ((phase + 1) % 248 = phase % 248 + 1 ∧ (phase + 1) / 248 = phase / 248) ∨
      (phase % 248 = 247 ∧ (phase + 1) % 248 = 0 ∧ (phase + 1) / 248 = phase / 248 + 1) := by
  omega

theorem steps_succ (phase : ℕ) :
    if phase % 248 < 124 then steps (phase + 1) = steps phase + 1
    else steps phase = steps (phase + 1) + 1 := by
  unfold steps
  rcases succ_cases phase with ⟨hmod, _⟩ | ⟨hlast, hmod, _⟩
  · rw [hmod]
    split_ifs <;> omega
  · rw [hmod, hlast]
    decide

theorem descent_succ (phase : ℕ) :
    descent (phase + 1) = descent phase + drop phase := by
  have hmod := Nat.mod_lt phase (show 0 < 248 by omega)
  unfold descent drop
  rcases succ_cases phase with ⟨hmod', hdiv⟩ | ⟨hlast, hmod', hdiv⟩
  · rw [hmod', hdiv]
    split_ifs <;> omega
  · rw [hmod', hdiv, hlast]
    change 50 * (phase / 248 + 1) = 50 * (phase / 248) + 50
    rw [Nat.mul_succ]

theorem descent_mono {phase later : ℕ} (hle : phase ≤ later) : descent phase ≤ descent later := by
  refine monotone_nat_of_le_succ (fun n => ?_) hle
  rw [descent_succ]
  exact Nat.le_add_right _ _

/-- From phase 3 on the contact with the left wall is over, so row 0 is where
the boss comes on. -/
theorem twenty_le_descent {phase : ℕ} (hphase : 3 ≤ phase) : 20 ≤ descent phase := by
  have hstart : descent 3 = 20 := by decide
  exact hstart ▸ descent_mono hphase

/-- The boss is at the bottom row from phase 2109 on. -/
theorem descent_lt_iff (phase : ℕ) : descent phase < 429 ↔ phase < 2109 := by
  constructor
  · intro hlt
    by_contra hlate
    have hlanded : descent 2109 = 430 := by decide
    have hmono := descent_mono (not_lt.mp hlate)
    omega
  · intro hearly
    have hlast : descent 2108 = 420 := by decide
    have hmono := descent_mono (Nat.le_of_lt_succ hearly)
    omega

end BossPath

namespace Boss

open BossPath

/-- The registers of the boss at a phase of the path. Column 1019 is five
columns to the left of column 0. -/
def onPath (phase : ℕ) : Boss where
  xPos := BitVec.ofNat 10 (5 * steps phase + 1019)
  yPos := BitVec.ofNat 10 (descent phase - 20)
  xMotion := if phase % 248 < 124 then 5#10 else 1019#10
  yMotion := BitVec.ofNat 10 (drop phase)
  enemyHit := false

theorem home_eq_onPath : home false = onPath 65 := by decide

theorem onPath_xPos_toNat (phase : ℕ) :
    (onPath phase).xPos.toNat = if steps phase = 0 then 1019 else 5 * steps phase - 5 := by
  have hle := steps_le phase
  simp only [onPath, BitVec.toNat_ofNat]
  split_ifs <;> omega

theorem onPath_yPos_toNat {phase : ℕ} (hearly : phase ≤ 2109) :
    (onPath phase).yPos.toNat = descent phase - 20 := by
  have hlanded : descent 2109 = 430 := by decide
  have hmono := descent_mono hearly
  simp only [onPath, BitVec.toNat_ofNat]
  omega

/-- The two columns at the right wall are the last two. -/
theorem onPath_atRightWall_iff (phase : ℕ) :
    (609 ≤ (onPath phase).xPos.toNat ∧ (onPath phase).xPos.toNat ≤ 993) ↔ 123 ≤ steps phase := by
  have hle := steps_le phase
  rw [onPath_xPos_toNat]
  split_ifs <;> omega

/-- Only column 0 is at the left wall: the overrun to 1019 is not seen there. -/
theorem onPath_atLeftWall_iff (phase : ℕ) :
    (onPath phase).xPos.toNat ≤ 1 ↔ steps phase = 1 := by
  rw [onPath_xPos_toNat]
  split_ifs <;> omega

/-- The motion a tick without Space chooses is that of the next phase. -/
theorem xMotionIn_onPath (phase : ℕ) {keycode : Keycode} (hkey : keycode ≠ keySpace) :
    (onPath phase).xMotionIn keycode = (onPath (phase + 1)).xMotion := by
  have hmod := Nat.mod_lt phase (show 0 < 248 by omega)
  have hwalls := xMotionIn_toNat keycode (onPath phase)
  simp only [onPath_atRightWall_iff, onPath_atLeftWall_iff, if_neg hkey] at hwalls
  rw [← BitVec.toNat_inj, hwalls]
  simp only [onPath]
  unfold steps
  rcases succ_cases phase with ⟨hmod', _⟩ | ⟨hlast, hmod', _⟩
  · rw [hmod']
    split_ifs <;> first | rfl | omega
  · rw [hmod', hlast]
    rfl

theorem yMotionIn_onPath (phase : ℕ) {keycode : Keycode} (hkey : keycode ≠ keySpace) :
    (onPath phase).yMotionIn keycode = (onPath (phase + 1)).yMotion := by
  have hmod := Nat.mod_lt phase (show 0 < 248 by omega)
  have hwalls := yMotionIn_toNat keycode (onPath phase)
  simp only [onPath_atRightWall_iff, onPath_atLeftWall_iff, if_neg hkey] at hwalls
  rw [← BitVec.toNat_inj, hwalls]
  simp only [onPath]
  unfold steps drop
  rcases succ_cases phase with ⟨hmod', _⟩ | ⟨hlast, hmod', _⟩
  · rw [hmod', if_neg (Nat.succ_ne_zero (phase % 248))]
    split_ifs <;> first | rfl | omega
  · rw [hmod', hlast]
    rfl

/-- The step that the motion register holds leads to the next phase's column. -/
theorem xPos_onPath_succ (phase : ℕ) :
    (onPath phase).xPos + (onPath phase).xMotion = (onPath (phase + 1)).xPos := by
  have hsteps := steps_succ phase
  simp only [onPath, ← BitVec.toNat_inj, BitVec.toNat_add]
  split_ifs at hsteps ⊢ <;> simp only [BitVec.toNat_ofNat] <;> omega

theorem yPos_onPath_succ {phase : ℕ} (hphase : 3 ≤ phase) :
    (onPath phase).yPos + (onPath phase).yMotion = (onPath (phase + 1)).yPos := by
  have hstarted := twenty_le_descent hphase
  simp only [onPath, ← BitVec.toNat_inj, BitVec.toNat_add, descent_succ, BitVec.toNat_ofNat]
  omega

/-- One tick without Space moves the boss one phase along its path. -/
theorem next_onPath {phase : ℕ} (hphase : 3 ≤ phase) (hearly : phase < 2109)
    {keycode : Keycode} (hkey : keycode ≠ keySpace) :
    (onPath phase).next true true keycode = onPath (phase + 1) := by
  have hbelow := (descent_lt_iff phase).mpr hearly
  have hstarted := twenty_le_descent hphase
  have habove : (onPath phase).yPos.toNat < 409 := by
    rw [onPath_yPos_toNat hearly.le]
    omega
  rw [next_tick rfl habove, mk.injEq]
  exact ⟨xPos_onPath_succ phase, yPos_onPath_succ hphase, xMotionIn_onPath phase hkey,
    yMotionIn_onPath phase hkey, rfl⟩

end Boss

end Galaga
