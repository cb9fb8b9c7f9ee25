import Galaga.Game.Arbitration

/-! # How many ships a shot destroys

At most one ship of each column is within reach of the shot. The ships are on
two consecutive legs of the path, and two of the same leg are fifty columns
apart, so both are within reach only at the two edges of the shot. The one that
is about to leave has been over the shot's columns for fifty ticks, so the shot
can only have come to it from below. The rows of consecutive legs differ by
thirty, so this cannot be on both legs at once: of the four ships at most three
are destroyed.
-/

namespace Galaga

/-- A ship and a shot with these columns and top rows meet. -/
def Meets (x y muzzle : ℕ) (top : ℤ) : Prop :=
  (x ≤ muzzle + 20 ∧ muzzle ≤ x + 30) ∧
    ((y ≤ top ∧ top ≤ y + 30) ∨ (y ≤ top + 49 ∧ top + 49 ≤ y + 30))

/-- The top row of a shot that has flown for so many ticks. It stays above the
screen for one more tick. -/
def flightTop (age : ℕ) : ℤ := 441 - 4 * min age 111

namespace InvaderPath

variable {phase muzzle y age : ℕ}

/-- The ship is at the edge of the columns where it leaves the shot. -/
def Leaving (phase muzzle : ℕ) : Prop :=
  (phase % 1220 < 610 ∧ column phase = muzzle + 20) ∨
    (610 ≤ phase % 1220 ∧ column phase + 30 = muzzle)

instance (phase muzzle : ℕ) : Decidable (Leaving phase muzzle) :=
  inferInstanceAs (Decidable (_ ∨ _))

/-- It has been over the shot for twelve ticks at least, in the same row. -/
theorem Leaving.before (hleaving : Leaving phase muzzle) (hlow : 3 ≤ muzzle)
    (hhigh : muzzle ≤ 610) {j : ℕ} (hj : j ≤ 12) :
    descent (phase - j) = descent phase ∧ column (phase - j) ≤ muzzle + 20 ∧
      muzzle ≤ column (phase - j) + 30 := by
  unfold Leaving column at hleaving
  have hleg : (phase - j) / 610 = phase / 610 := by
    split_ifs at hleaving <;> omega
  have hwall : 3 ≤ (phase - j) % 610 := by
    split_ifs at hleaving <;> omega
  refine ⟨?_, ?_⟩
  · unfold descent
    omega
  · unfold column
    split_ifs at hleaving ⊢ <;> omega

/-- A leaving ship that the shot has not met before is met from below. -/
theorem Leaving.top_near (hleaving : Leaving phase muzzle) (hlow : 3 ≤ muzzle)
    (hhigh : muzzle ≤ 610) (hrow : y ≤ 410)
    (hmeets : Meets (column phase) y muzzle (flightTop age))
    (hfresh : ∀ j, 0 < j → j ≤ age → j ≤ 12 →
      ¬ Meets (column (phase - j)) y muzzle (flightTop (age - j))) :
    (y : ℤ) + 27 ≤ flightTop age ∧ flightTop age ≤ y + 30 := by
  have hmissed : ∀ j, 0 < j → j ≤ age → j ≤ 12 →
      ¬ ((y ≤ flightTop (age - j) ∧ flightTop (age - j) ≤ y + 30) ∨
        (y ≤ flightTop (age - j) + 49 ∧ flightTop (age - j) + 49 ≤ y + 30)) := by
    intro j hpos hage hj hrows
    obtain ⟨_, hcolumns⟩ := hleaving.before hlow hhigh hj
    exact hfresh j hpos hage hj ⟨hcolumns, hrows⟩
  have hrows := hmeets.2
  have hone := hmissed 1
  have htwelve := hmissed 12
  unfold flightTop at *
  omega

theorem Leaving.descent_eq (hleaving : Leaving phase muzzle) (hlow : 3 ≤ muzzle)
    (hhigh : muzzle ≤ 610) : descent phase = 30 * (phase / 610) + 30 := by
  have hwall : 3 ≤ phase % 610 := by
    unfold Leaving column at hleaving
    split_ifs at hleaving <;> omega
  unfold descent
  omega

/-- Two leaving ships of the same leg are in the same column. -/
theorem Leaving.eq_of_sameLeg {phase' : ℕ} (hleaving : Leaving phase muzzle)
    (hleaving' : Leaving phase' muzzle) (hnear : phase ≤ phase' + 250)
    (hnear' : phase' ≤ phase + 250) (hleg : phase % 1220 < 610 ↔ phase' % 1220 < 610) :
    phase = phase' := by
  unfold Leaving column at hleaving hleaving'
  split_ifs at hleaving hleaving' <;> omega

/-- Two ships of the same leg, both within the columns of the shot and neither
leaving them, are in the same column: the shot is no wider than their distance. -/
theorem eq_of_not_leaving {phase' : ℕ} (hstay : ¬ Leaving phase muzzle)
    (hstay' : ¬ Leaving phase' muzzle)
    (hcolumns : column phase ≤ muzzle + 20 ∧ muzzle ≤ column phase + 30)
    (hcolumns' : column phase' ≤ muzzle + 20 ∧ muzzle ≤ column phase' + 30)
    (hnear : phase ≤ phase' + 250) (hnear' : phase' ≤ phase + 250)
    (hfifty : phase % 50 = phase' % 50) (hleg : phase % 1220 < 610 ↔ phase' % 1220 < 610) :
    phase = phase' := by
  -- the distance of the phases is that of the spots on the leg
  have hlap : phase / 1220 = phase' / 1220 := by omega
  have hspots : phase % 1220 + phase' = phase' % 1220 + phase := by omega
  have hspot := Nat.mod_lt phase (show 0 < 1220 by decide)
  have hspot' := Nat.mod_lt phase' (show 0 < 1220 by decide)
  have hfar : phase + 50 ≤ phase' ∨ phase' + 50 ≤ phase ∨ phase = phase' := by omega
  unfold Leaving column at hstay hstay'
  unfold column at hcolumns hcolumns'
  generalize phase % 1220 = spot at *
  generalize phase' % 1220 = spot' at *
  clear hlap hfifty
  split_ifs at hstay hstay' hcolumns hcolumns' <;> omega

end InvaderPath

namespace Shot

/-- The ticks of the flight so far. -/
def age : Shot → ℕ
  | unset | parked | loaded | recoiled => 0
  | flying climbed => climbed
  | spent => 112

theorem top_toLaser {shot : Shot} (hset : shot ≠ unset) (x : Coord) :
    (shot.toLaser x).top = flightTop shot.age := by
  unfold UserLaser.top flightTop
  rw [toLaser_yPos_toNat]
  cases shot with
  | unset => exact absurd rfl hset
  | flying climbed =>
      have hclimbed := climbed.isLt
      simp only [row, age]
      split_ifs <;> omega
  | _ => rfl

@[simp] theorem age_onHit (space : Bool) : (onHit space).age = 0 := by
  cases space <;> rfl

/-- A tick ends the flight or continues it in the same column. -/
theorem age_onTick (space : Bool) (userX x : Coord) (shot : Shot) :
    (shot.onTick space).age = 0 ∨
      ((shot.onTick space).age = shot.age + 1 ∧ shot.columnOnTick space userX x = x) := by
  cases shot with
  | flying climbed =>
      by_cases hmore : climbed.val + 1 < 112
      · right
        simp only [onTick, columnOnTick, hmore, dite_true, if_true]
        exact ⟨rfl, trivial⟩
      · have hend : climbed.val = 111 := by omega
        cases space with
        | true =>
            left
            simp only [onTick, hmore, dite_false, if_true]
            rfl
        | false =>
            right
            simp [onTick, columnOnTick, age, hend]
  | _ => left; cases space <;> rfl

end Shot

namespace Core

open InvaderPath

variable {core : Core} {n : ℕ} {shot : Shot}

/-- The live ships are those that the shot has not met on its flight. -/
structure Sweeping (core : Core) (shot : Shot) (n : ℕ) : Prop where
  laser : core.laser = shot.toLaser core.laser.xPos
  set : shot ≠ .unset
  started : shot.age ≤ n
  fresh : ∀ row col, (core.enemy row col).enemyHit = false → ∀ j, 0 < j → j ≤ shot.age →
    ¬ Meets (column (50 * col + 50 + n - j)) (formationRow row col (n - j))
      core.laser.xPos.toNat (flightTop (shot.age - j))

theorem Sweeping.top (hsweep : core.Sweeping shot n) : core.laser.top = flightTop shot.age := by
  rw [hsweep.laser, Shot.top_toLaser hsweep.set]

/-- Before its first tick a shot has met nothing. -/
theorem sweeping_of_age (hlaser : core.laser = shot.toLaser core.laser.xPos)
    (hset : shot ≠ .unset) (hage : shot.age = 0) : core.Sweeping shot n where
  laser := hlaser
  set := hset
  started := hage ▸ Nat.zero_le n
  fresh := fun _ _ _ j hpos hj => by omega

theorem Playing.inReach_iff (hplaying : core.Playing n) {age : ℕ}
    (htop : core.laser.top = flightTop age) {row : Fin 3} {col : Fin 6}
    (hlive : (core.enemy row col).enemyHit = false) :
    (core.enemy row col).InReach core.laser ↔
      Meets (column (50 * col + 50 + n)) (formationRow row col n) core.laser.xPos.toNat
        (flightTop age) := by
  obtain ⟨hship, hrow⟩ := hplaying.formation_of_live hlive
  have hcolumn : (core.enemy row col).xPos.toNat = column (50 * col + 50 + n) := by
    rw [hship, formation, EnemyShip.onPath_xPos_toNat]
  have hheight : (core.enemy row col).yPos.toNat = formationRow row col n := by
    rw [hship, formation_yPos hrow]
  unfold EnemyShip.InReach Meets
  rw [hcolumn, hheight, htop]

section Step

variable (hinv : core.Inv) (hstate : core.state = .play) (hdied : core.died = false)
  (hplaying : core.Playing n) (hsweep : core.Sweeping shot n) (keycode : Keycode)
include hplaying hdied

/-- A ship that is alive after a cycle of play was alive before it. -/
theorem Playing.live_of_next {tick : Bool} {row : Fin 3} {col : Fin 6}
    (hlive : ((core.next tick keycode).enemy row col).enemyHit = false) :
    (core.enemy row col).enemyHit = false := by
  rw [Bool.eq_false_iff] at hlive ⊢
  intro hhit
  exact hlive ((core.next_enemyHit_iff tick keycode row col).mpr
    ⟨hplaying.done hdied, Or.inl hhit⟩)

include hinv hstate hsweep

/-- A tick finds no live ship within reach, so the shot has met none of those
that go on. -/
theorem Sweeping.tick (hquiet : core.laserHit = false) :
    ∃ shot', (core.next true keycode).Sweeping shot' (n + 1) := by
  have hlaser := next_laser_of_tick hinv.ship (Or.inl hstate) hsweep.laser hquiet keycode
  refine ⟨shot.onTick (keycode == keySpace), ?_⟩
  rcases shot.age_onTick (keycode == keySpace) core.ship.xPos core.laser.xPos with
    hage | ⟨hage, hcolumn⟩
  · refine sweeping_of_age ?_ (Shot.onTick_ne_unset _ _) hage
    rw [hlaser, Shot.toLaser_xPos]
  · rw [hcolumn] at hlaser
    have hmuzzle : (core.next true keycode).laser.xPos = core.laser.xPos := by
      rw [hlaser, Shot.toLaser_xPos]
    refine ⟨?_, Shot.onTick_ne_unset _ _, ?_, ?_⟩
    · rw [hmuzzle, hlaser]
    · have hstarted := hsweep.started
      omega
    · intro row col hlive j hpos hj
      have hbefore := hplaying.live_of_next hdied keycode hlive
      obtain ⟨i, rfl⟩ := Nat.exists_eq_add_of_lt hpos
      rw [hmuzzle, hage, Nat.zero_add, ← Nat.add_assoc, Nat.add_sub_add_right,
        Nat.add_sub_add_right, Nat.add_sub_add_right]
      cases i with
      | zero =>
          intro hmeets
          have hreach := (hplaying.inReach_iff hsweep.top hbefore).mpr hmeets
          exact untouched_of_no_hit hstate hquiet row col
            ((hinv.touched_iff_inReach hstate hbefore).mpr hreach)
      | succ i => exact hsweep.fresh row col hbefore (i + 1) (Nat.succ_pos i) (by omega)

/-- In any other cycle the shot waits, or it is brought back to the ship. -/
theorem Sweeping.idle : ∃ shot', (core.next false keycode).Sweeping shot' n := by
  cases hhit : core.laserHit with
  | true =>
      have hlaser := next_laser_of_hit hinv.ship (Or.inl hstate) hhit false keycode
      refine ⟨_, sweeping_of_age ?_ (Shot.onHit_ne_unset (keycode == keySpace))
        (Shot.age_onHit _)⟩
      rw [hlaser, Shot.toLaser_xPos]
  | false =>
      have hlaser := next_laser_of_idle (Or.inl hstate) hhit keycode
      refine ⟨shot, ?_, hsweep.set, hsweep.started, fun row col hlive => ?_⟩
      · rw [hlaser]
        exact hsweep.laser
      · rw [hlaser]
        exact hsweep.fresh row col (hplaying.live_of_next hdied keycode hlive)

end Step

section Reach

variable (hinv : core.Inv) (hplaying : core.Playing n) (hsweep : core.Sweeping shot n)
  {row row' : Fin 3} {col col' : Fin 6}
include hinv hplaying hsweep

/-- The shot has just come from below to a leaving ship. -/
theorem Sweeping.top_near (hlive : (core.enemy row col).enemyHit = false)
    (hreach : (core.enemy row col).InReach core.laser)
    (hleaving : Leaving (50 * col + 50 + n) core.laser.xPos.toNat) :
    (formationRow row col n : ℤ) + 27 ≤ flightTop shot.age ∧
      flightTop shot.age ≤ formationRow row col n + 30 := by
  obtain ⟨_, hrow⟩ := hplaying.formation_of_live hlive
  refine hleaving.top_near hinv.muzzle.1 hinv.muzzle.2 hrow
    ((hplaying.inReach_iff hsweep.top hlive).mp hreach) fun j hpos hage hj => ?_
  have hstarted := hsweep.started
  have hphase : 50 * (col : ℕ) + 50 + (n - j) = 50 * col + 50 + n - j := by omega
  have hsame := (hleaving.before hinv.muzzle.1 hinv.muzzle.2 hj).1
  have hfresh := hsweep.fresh row col hlive j hpos hage
  rw [formationRow, hphase, hsame] at hfresh
  exact hfresh

/-- Two leaving ships within reach are in one column. On different legs their
rows would be too far apart for the top of the shot. -/
theorem Sweeping.col_eq_of_leaving (hlive : (core.enemy row col).enemyHit = false)
    (hlive' : (core.enemy row' col').enemyHit = false)
    (hreach : (core.enemy row col).InReach core.laser)
    (hreach' : (core.enemy row' col').InReach core.laser)
    (hleaving : Leaving (50 * col + 50 + n) core.laser.xPos.toNat)
    (hleaving' : Leaving (50 * col' + 50 + n) core.laser.xPos.toNat) : col = col' := by
  have hcol := col.isLt
  have hcol' := col'.isLt
  by_cases hleg :
      (50 * (col : ℕ) + 50 + n) % 1220 < 610 ↔ (50 * (col' : ℕ) + 50 + n) % 1220 < 610
  · have hphase := hleaving.eq_of_sameLeg hleaving' (by omega) (by omega) hleg
    exact Fin.ext (by omega)
  · have htop := hsweep.top_near hinv hplaying hlive hreach hleaving
    have htop' := hsweep.top_near hinv hplaying hlive' hreach' hleaving'
    have hheight := formationRow_eq row col n
    have hheight' := formationRow_eq row' col' n
    rw [hleaving.descent_eq hinv.muzzle.1 hinv.muzzle.2] at hheight
    rw [hleaving'.descent_eq hinv.muzzle.1 hinv.muzzle.2] at hheight'
    omega

/-- A leaving ship, or the direction of one that is not. No two ships within
reach have the same. -/
def slot (col : Fin 6) (n : ℕ) (muzzle : Coord) : Option Bool :=
  if Leaving (50 * col + 50 + n) muzzle.toNat then none
  else some (decide ((50 * (col : ℕ) + 50 + n) % 1220 < 610))

theorem Sweeping.col_eq_of_slot (hlive : (core.enemy row col).enemyHit = false)
    (hlive' : (core.enemy row' col').enemyHit = false)
    (hreach : (core.enemy row col).InReach core.laser)
    (hreach' : (core.enemy row' col').InReach core.laser)
    (hslot : slot col n core.laser.xPos = slot col' n core.laser.xPos) : col = col' := by
  unfold slot at hslot
  by_cases hleaving : Leaving (50 * col + 50 + n) core.laser.xPos.toNat
  · by_cases hleaving' : Leaving (50 * col' + 50 + n) core.laser.xPos.toNat
    · exact hsweep.col_eq_of_leaving hinv hplaying hlive hlive' hreach hreach' hleaving hleaving'
    · rw [if_pos hleaving, if_neg hleaving'] at hslot
      cases hslot
  · by_cases hleaving' : Leaving (50 * col' + 50 + n) core.laser.xPos.toNat
    · rw [if_neg hleaving, if_pos hleaving'] at hslot
      cases hslot
    · rw [if_neg hleaving, if_neg hleaving', Option.some.injEq, decide_eq_decide] at hslot
      have hcol := col.isLt
      have hcol' := col'.isLt
      have hmeets := (hplaying.inReach_iff hsweep.top hlive).mp hreach
      have hmeets' := (hplaying.inReach_iff hsweep.top hlive').mp hreach'
      have hphase := eq_of_not_leaving hleaving hleaving' hmeets.1 hmeets'.1 (by omega) (by omega)
        (by omega) hslot
      exact Fin.ext (by omega)

end Reach

instance (core later : Core) (row : Fin 3) (col : Fin 6) :
    Decidable (Destroys core later row col) :=
  inferInstanceAs (Decidable (_ ∧ _))

/-- The ships that are destroyed in this cycle. -/
def kills (core later : Core) : Finset (Fin 3 × Fin 6) :=
  Finset.univ.filter fun target => Destroys core later target.1 target.2

theorem mem_kills {later : Core} {row : Fin 3} {col : Fin 6} :
    (row, col) ∈ core.kills later ↔ Destroys core later row col := by
  simp [kills]

/-- One for each slot at most. -/
theorem Sweeping.card_kills_le (hinv : core.Inv) (hstate : core.state = .play)
    (hplaying : core.Playing n) (hsweep : core.Sweeping shot n) (tick : Bool) (keycode : Keycode) :
    (core.kills (core.next tick keycode)).card ≤ 3 := by
  have hslots : (Finset.univ : Finset (Option Bool)).card = 3 := rfl
  refine (Finset.card_le_card_of_injOn (fun target => slot target.2 n core.laser.xPos)
    (fun _ _ => Finset.mem_univ _) ?_).trans hslots.le
  rintro ⟨row, col⟩ hmem ⟨row', col'⟩ hmem' hslot
  rw [Finset.mem_coe, mem_kills, hinv.destroys_iff hstate] at hmem hmem'
  obtain ⟨_, hlive, hreach⟩ := hmem
  obtain ⟨_, hlive', hreach'⟩ := hmem'
  have hcol := hsweep.col_eq_of_slot hinv hplaying hlive hlive' hreach hreach' hslot
  subst hcol
  rw [hplaying.row_eq_of_inReach hlive hlive' hreach hreach']

end Core

namespace Run

open Galaga.Core

variable (run : Run)

/-- In every cycle of play. -/
theorem exists_sweeping (n : ℕ) (hstate : (run.core n).state = .play) :
    ∃ ticks shot, (run.core n).Playing ticks ∧ (run.core n).Sweeping shot ticks := by
  induction n with
  | zero =>
      rw [run.core_zero] at hstate
      cases hstate
  | succ n ih =>
      have hinv := run.inv n
      rw [run.core_succ] at hstate ⊢
      rcases State.next_eq_play hstate with hstart | ⟨hplay, hdied, _⟩
      · have hnot : ¬ (run.core n).Fighting := by simp [Fighting, hstart]
        have hlaser := next_laser_of_not_fighting hinv.ship hnot (run.tick n) (run.keycode n)
        refine ⟨0, .parked, hinv.playing_of_start hstart _ _, ?_⟩
        refine sweeping_of_age ?_ (by decide) rfl
        rw [hlaser, Shot.toLaser_xPos]
      · obtain ⟨ticks, shot, hplaying, hsweep⟩ := ih hplay
        have hnext := hplaying.next hplay hinv.ship hdied (run.tick n) (run.quiet_of_tick n)
          (run.keycode n)
        cases htick : run.tick n with
        | true =>
            rw [htick] at hnext
            obtain ⟨shot', hsweep'⟩ := hsweep.tick hinv hplay hdied hplaying (run.keycode n)
              (run.quiet_of_tick n htick).laserHit
            exact ⟨ticks + 1, shot', hnext, hsweep'⟩
        | false =>
            rw [htick] at hnext
            obtain ⟨shot', hsweep'⟩ := hsweep.idle hinv hplay hdied hplaying (run.keycode n)
            exact ⟨ticks, shot', hnext, hsweep'⟩

theorem card_kills_le (n : ℕ) (hstate : (run.core n).state = .play) :
    ((run.core n).kills (run.core (n + 1))).card ≤ 3 := by
  obtain ⟨ticks, shot, hplaying, hsweep⟩ := run.exists_sweeping n hstate
  rw [run.core_succ]
  exact hsweep.card_kills_le (run.inv n) hstate hplaying _ _

/-- Two shots open the last row, and a third one waits until its last two
columns have turned at the wall and meet one that has not. -/
def crossing : List Keycode :=
  List.replicate 25 keyD ++ keySpace :: (List.replicate 70 0#8 ++ keySpace ::
    (List.replicate 94 keyD ++ List.replicate 116 0#8 ++ keySpace :: List.replicate 76 0#8))

theorem hits_crossing : ((PlayFrame.opening.plays crossing).ticked 0#8).hits =
    [(1, 4), (1, 5), (2, 2)] := by
  decide +kernel

theorem alive_crossing : (PlayFrame.opening.plays crossing).alive ≠ [] := by
  decide +kernel

theorem length_crossing : crossing.length < 5000 := by
  decide +kernel

/-- The largest number of ships that are destroyed in one cycle of play, in all
runs. -/
theorem one_shot_three_ships :
    IsGreatest {count | ∃ (run : Run) (n : ℕ), (run.core n).state = .play ∧
      count = ((run.core n).kills (run.core (n + 1))).card} 3 := by
  constructor
  · have htick := scripted_play_tick [] 0#8 length_crossing alive_crossing
    have hplay : ((scripted (crossing ++ [0#8])).core (1 + 4 * crossing.length + 1)).state =
        .play := by
      rw [htick]
      rfl
    refine ⟨scripted (crossing ++ [0#8]), 1 + 4 * crossing.length + 1, hplay, ?_⟩
    refine le_antisymm ?_ (card_kills_le _ _ hplay)
    have hthree : ({(1, 4), (1, 5), (2, 2)} : Finset (Fin 3 × Fin 6)).card = 3 := rfl
    refine hthree.ge.trans (Finset.card_le_card fun target hmem => ?_)
    apply mem_kills.mpr
    apply scripted_kill [] 0#8 length_crossing alive_crossing
    rw [hits_crossing]
    simpa using hmem
  · rintro count ⟨run, n, hstate, rfl⟩
    exact run.card_kills_le n hstate

end Run

end Galaga
