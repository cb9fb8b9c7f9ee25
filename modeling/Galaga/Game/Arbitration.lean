import Galaga.Game.Formation
import Galaga.Game.Scripted

/-! # One shot and several ships

Eighteen hit controllers test the same laser, and nothing arbitrates between
them. Two ships of a column are too far apart to be reached at once, but the
gap between two columns can be narrower than the laser.
-/

namespace Galaga

/-- The top row of the laser, negative above the screen. -/
def UserLaser.top (laser : UserLaser) : ℤ :=
  if laser.yPos.toNat ≤ 479 then laser.yPos.toNat else laser.yPos.toNat - 1024

/-- The ship is within reach of the laser, in the numbers that the registers
stand for: their columns meet, bounds included, and the laser's top or bottom
row is one of the ship's. -/
def EnemyShip.InReach (laser : UserLaser) (ship : EnemyShip) : Prop :=
  (ship.xPos.toNat ≤ laser.xPos.toNat + 20 ∧ laser.xPos.toNat ≤ ship.xPos.toNat + 30) ∧
    ((ship.yPos.toNat ≤ laser.top ∧ laser.top ≤ ship.yPos.toNat + 30) ∨
      (ship.yPos.toNat ≤ laser.top + 49 ∧ laser.top + 49 ≤ ship.yPos.toNat + 30))

namespace Core

variable {core : Core} {n : ℕ}

/-- In a fight the laser's row is on the screen, or one step above it. -/
theorem Inv.laser_row (hinv : core.Inv) (hstate : core.Fighting) :
    core.laser.yPos.toNat ≤ 441 ∨ core.laser.yPos.toNat = 1021 := by
  obtain ⟨shot, hlaser, hunset⟩ := hinv.laser
  rw [hlaser, Shot.toLaser_yPos_toNat]
  apply Shot.row_le_or
  intro hreset
  have hstart := hunset hreset
  rcases hstate with hplay | hfight
  · rw [hstart] at hplay
    cases hplay
  · rw [hstart] at hfight
    cases hfight

/-- Two live enemies of different columns are within reach. -/
def CrossFire (core : Core) : Prop :=
  ∃ row row' col col', col ≠ col' ∧ (core.enemy row col).enemyHit = false ∧
    (core.enemy row' col').enemyHit = false ∧ (core.enemy row col).InReach core.laser ∧
    (core.enemy row' col').InReach core.laser

/-- For the positions of play the wrapping hit test is the plain one. -/
theorem laserHitTemp_iff {ship : EnemyShip} {laser : UserLaser} (hx : ship.xPos.toNat ≤ 610)
    (hy : ship.yPos.toNat ≤ 410) (hmuzzle : laser.xPos.toNat ≤ 610)
    (hrow : laser.yPos.toNat ≤ 441 ∨ laser.yPos.toNat = 1021) :
    ship.laserHitTemp laser.xPos laser.yPos = true ↔ ship.InReach laser := by
  unfold EnemyShip.laserHitTemp EnemyShip.InReach UserLaser.top
  rw [HitController.temp_iff, overlap_iff]
  rcases hrow with hrow | hrow
  · rw [if_pos (by omega)]
    omega
  · rw [if_neg (by omega), hrow]
    omega

/-- Every ship of a live formation is on the screen. -/
theorem formation_onScreen {row : Fin 3} {col : Fin 6} (hrow : formationRow row col n ≤ 410) :
    (formation row col n).xPos.toNat ≤ 610 ∧ (formation row col n).yPos.toNat ≤ 410 := by
  refine ⟨?_, by rw [formation_yPos hrow]; exact hrow⟩
  rw [formation, EnemyShip.onPath_xPos_toNat]
  exact InvaderPath.column_le _

theorem Inv.touched_iff_inReach (hinv : core.Inv) (hstate : core.state = .play) {row : Fin 3}
    {col : Fin 6} (hlive : (core.enemy row col).enemyHit = false) :
    core.Touched row col ↔ (core.enemy row col).InReach core.laser := by
  obtain ⟨n, _, hplaying⟩ := hinv.play hstate
  obtain ⟨hship, hrow⟩ := hplaying.formation_of_live hlive
  obtain ⟨hx, hy⟩ := formation_onScreen hrow
  rw [← hship] at hx hy
  exact laserHitTemp_iff hx hy hinv.muzzle.2 (hinv.laser_row (Or.inl hstate))

/-- Two ships of one column are never both within reach. -/
theorem Playing.row_eq_of_inReach (hplaying : core.Playing n) {row row' : Fin 3} {col : Fin 6}
    (hlive : (core.enemy row col).enemyHit = false)
    (hlive' : (core.enemy row' col).enemyHit = false)
    (hreach : (core.enemy row col).InReach core.laser)
    (hreach' : (core.enemy row' col).InReach core.laser) : row = row' := by
  obtain ⟨hship, hrow⟩ := hplaying.formation_of_live hlive
  obtain ⟨hship', hrow'⟩ := hplaying.formation_of_live hlive'
  have hheight := formationRow_eq row col n
  have hheight' := formationRow_eq row' col n
  have hrows := hreach.2
  have hrows' := hreach'.2
  rw [hship, formation_yPos hrow] at hrows
  rw [hship', formation_yPos hrow'] at hrows'
  apply Fin.ext
  omega

/-- A register is set in this cycle. -/
def Destroys (core later : Core) (row : Fin 3) (col : Fin 6) : Prop :=
  (core.enemy row col).enemyHit = false ∧ (later.enemy row col).enemyHit = true

theorem Inv.destroys_iff (hinv : core.Inv) (hstate : core.state = .play) (tick : Bool)
    (keycode : Keycode) (row : Fin 3) (col : Fin 6) :
    Destroys core (core.next tick keycode) row col ↔
      core.done = false ∧ (core.enemy row col).enemyHit = false ∧
        (core.enemy row col).InReach core.laser := by
  unfold Destroys
  rw [next_enemyHit_iff]
  constructor
  · rintro ⟨hlive, hdone, hhit⟩
    have htouched := hhit.resolve_left (by rw [hlive]; exact Bool.false_ne_true)
    exact ⟨hdone, hlive, (hinv.touched_iff_inReach hstate hlive).mp htouched⟩
  · rintro ⟨hdone, hlive, hreach⟩
    exact ⟨hlive, hdone, Or.inr ((hinv.touched_iff_inReach hstate hlive).mpr hreach)⟩

end Core

namespace Run

open Galaga.Core

/-- In a cycle of play at most one ship is destroyed, exactly if the game is
being lost or no two live ships of different columns are within reach. -/
theorem one_shot_one_ship_iff (run : Run) (n : ℕ) (hstate : (run.core n).state = .play) :
    (∀ row row' col col', Destroys (run.core n) (run.core (n + 1)) row col →
      Destroys (run.core n) (run.core (n + 1)) row' col' → (row, col) = (row', col')) ↔
        ((run.core n).done = true ∨ ¬ (run.core n).CrossFire) := by
  have hinv := run.inv n
  have hdestroys := hinv.destroys_iff hstate (run.tick n) (run.keycode n)
  rw [run.core_succ]
  simp only [hdestroys]
  constructor
  · intro hone
    by_contra hboth
    rw [not_or, not_not, Bool.not_eq_true] at hboth
    obtain ⟨hdone, row, row', col, col', hne, hlive, hlive', hreach, hreach'⟩ := hboth
    have hsame := hone row row' col col' ⟨hdone, hlive, hreach⟩ ⟨hdone, hlive', hreach'⟩
    exact hne (congrArg Prod.snd hsame)
  · rintro hsafe row row' col col' ⟨hdone, hlive, hreach⟩ ⟨_, hlive', hreach'⟩
    have hnone : ¬ (run.core n).CrossFire := by
      refine hsafe.resolve_left ?_
      rw [hdone]
      exact Bool.false_ne_true
    -- they are of one column, so of one row too
    have hcol : col = col' := by
      by_contra hne
      exact hnone ⟨row, row', col, col', hne, hlive, hlive', hreach, hreach'⟩
    subst hcol
    obtain ⟨m, _, hplaying⟩ := hinv.play hstate
    rw [hplaying.row_eq_of_inReach hlive hlive' hreach hreach']

/-- Twenty frames to the right, and Space: the shot rises between the last two
columns. -/
def betweenColumns : List Keycode := List.replicate 20 keyD ++ List.replicate 64 keySpace

theorem hits_betweenColumns :
    (2, 4) ∈ ((PlayFrame.opening.plays betweenColumns).ticked keySpace).hits ∧
      (2, 5) ∈ ((PlayFrame.opening.plays betweenColumns).ticked keySpace).hits := by
  decide +kernel

theorem alive_betweenColumns : (PlayFrame.opening.plays betweenColumns).alive ≠ [] := by
  decide +kernel

theorem length_betweenColumns : betweenColumns.length < 5000 := by
  decide

/-- One shot destroys a ship of each. -/
theorem one_shot_two_ships :
    ((scripted (betweenColumns ++ [keySpace])).core
        (1 + 4 * betweenColumns.length + 1)).state = .play ∧
      Destroys ((scripted (betweenColumns ++ [keySpace])).core (1 + 4 * betweenColumns.length + 1))
        ((scripted (betweenColumns ++ [keySpace])).core (1 + 4 * betweenColumns.length + 2)) 2 4 ∧
      Destroys ((scripted (betweenColumns ++ [keySpace])).core (1 + 4 * betweenColumns.length + 1))
        ((scripted (betweenColumns ++ [keySpace])).core
          (1 + 4 * betweenColumns.length + 2)) 2 5 := by
  have htick := scripted_play_tick [] keySpace length_betweenColumns alive_betweenColumns
  refine ⟨by rw [htick]; rfl, ?_, ?_⟩
  · exact scripted_kill [] keySpace length_betweenColumns alive_betweenColumns
      hits_betweenColumns.1
  · exact scripted_kill [] keySpace length_betweenColumns alive_betweenColumns
      hits_betweenColumns.2

/-- The first shot of `firstShot` destroys one ship. -/
theorem one_shot_one_ship_firstShot :
    Destroys ((scripted firstShot).core 258) ((scripted firstShot).core (258 + 1)) 2 4 ∧
      ∀ row col, Destroys ((scripted firstShot).core 258) ((scripted firstShot).core (258 + 1))
        row col → (row, col) = (2, 4) := by
  have hinv := (scripted firstShot).inv 258
  rw [scripted_firstHit] at hinv
  have hnone : ¬ ((scripted firstShot).core 258).CrossFire := by
    rw [scripted_firstHit]
    rintro ⟨row, row', col, col', hne, hlive, hlive', hreach, hreach'⟩
    rw [← hinv.touched_iff_inReach rfl hlive,
      PlayFrame.touched_toCore_iff (by decide) (by decide), hits_firstHit,
      List.mem_singleton] at hreach
    rw [← hinv.touched_iff_inReach rfl hlive',
      PlayFrame.touched_toCore_iff (by decide) (by decide), hits_firstHit,
      List.mem_singleton] at hreach'
    exact hne (congrArg Prod.snd (hreach.trans hreach'.symm))
  have hplay : ((scripted firstShot).core 258).state = .play := by
    rw [scripted_firstHit]
    rfl
  have hone := (one_shot_one_ship_iff (scripted firstShot) 258 hplay).mpr (Or.inr hnone)
  exact ⟨scripted_firstKill, fun row col hother => hone row 2 col 4 hother scripted_firstKill⟩

end Run

end Galaga
