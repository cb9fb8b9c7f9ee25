import Galaga.Game.Settling

/-! # Play, one frame at a time

A frame is a tick and three cycles without one. Over a frame play refines a
small machine on natural numbers: the formation moves one step along its path,
the shot one step along its flight, and the ships that the shot then reaches
are gone.
-/

namespace Galaga

/-- The cycles of one frame, with the key held. -/
def Core.frame (keycode : Keycode) (core : Core) : Core :=
  (Core.next false keycode)^[3] (core.next true keycode)

/-- Several frames, one key for each. -/
def Core.frames (keys : List Keycode) (core : Core) : Core :=
  keys.foldl (fun core keycode => core.frame keycode) core

theorem Core.frames_cons (keycode : Keycode) (keys : List Keycode) (core : Core) :
    core.frames (keycode :: keys) = (core.frame keycode).frames keys := rfl

theorem Core.frames_append (keys more : List Keycode) (core : Core) :
    core.frames (keys ++ more) = (core.frames keys).frames more :=
  List.foldl_append

/-- A frame keeps the invariant and ends quiet. -/
theorem Core.Inv.frame {core : Core} (hinv : core.Inv) (hquiet : core.Quiet)
    (keycode : Keycode) : (core.frame keycode).Inv ∧ (core.frame keycode).Quiet := by
  have htick := hinv.next true keycode fun _ => hquiet
  have hsecond := htick.next false keycode (by simp)
  have hthird := hsecond.next false keycode (by simp)
  exact ⟨hthird.next false keycode (by simp), hthird.next_quiet keycode⟩

theorem Core.Inv.frames {core : Core} (hinv : core.Inv) (hquiet : core.Quiet)
    (keys : List Keycode) : (core.frames keys).Inv ∧ (core.frames keys).Quiet := by
  induction keys generalizing core with
  | nil => exact ⟨hinv, hquiet⟩
  | cons keycode keys ih =>
      obtain ⟨hinv', hquiet'⟩ := hinv.frame hquiet keycode
      exact ih hinv' hquiet'

/-- A game being played, between two frames. -/
structure PlayFrame where
  ticks : ℕ
  ship : UserShip
  shot : Shot
  laserX : Coord
  alive : List (Fin 3 × Fin 6)
deriving DecidableEq

namespace PlayFrame

open InvaderPath

/-- The registers of such a game. -/
def toCore (frame : PlayFrame) : Core where
  state := .play
  ship := frame.ship
  rows := fun row col =>
    if (row, col) ∈ frame.alive then formation row col frame.ticks else EnemyShip.parkedAway
  boss := Boss.home false
  laser := frame.shot.toLaser frame.laserX

/-- The hit test for a ship of the formation. -/
def reached (ticks laserX laserY : ℕ) (target : Fin 3 × Fin 6) : Bool :=
  let x := column (50 * target.2 + 50 + ticks)
  let y := formationRow target.1 target.2 ticks
  ((x.ble laserX && laserX.ble (x + 30)) || (x.ble (laserX + 20) && (laserX + 20).ble (x + 30))) &&
    ((y.ble laserY && laserY.ble (y + 30)) ||
      (y.ble ((laserY + 49) % 1024) && ((laserY + 49) % 1024).ble (y + 30)))

/-- The live ships that the shot reaches. At the ship it reaches none. -/
def hits (frame : PlayFrame) : List (Fin 3 × Fin 6) :=
  if frame.shot.row == 441 then []
  else frame.alive.filter (reached frame.ticks frame.laserX.toNat frame.shot.row)

/-- The tick itself. -/
def ticked (keycode : Keycode) (frame : PlayFrame) : PlayFrame where
  ticks := frame.ticks + 1
  ship := frame.ship.next true keycode
  shot := frame.shot.onTick (keycode == keySpace)
  laserX := frame.shot.columnOnTick (keycode == keySpace) frame.ship.xPos frame.laserX
  alive := frame.alive

/-- The ships that are reached are gone, and the laser is back at the ship. -/
def resolved (keycode : Keycode) (frame : PlayFrame) : PlayFrame :=
  { frame with
    shot := Shot.onHit (keycode == keySpace)
    laserX := frame.ship.xPos + 8#10
    alive := frame.alive.filter fun target => !frame.hits.contains target }

/-- One frame. -/
def next (keycode : Keycode) (frame : PlayFrame) : PlayFrame :=
  if (frame.ticked keycode).hits.isEmpty then frame.ticked keycode
  else (frame.ticked keycode).resolved keycode

variable {frame : PlayFrame} {keycode : Keycode} {row : Fin 3} {col : Fin 6}

theorem enemy_toCore_of_mem (hmem : (row, col) ∈ frame.alive) :
    frame.toCore.enemy row col = formation row col frame.ticks :=
  if_pos hmem

theorem enemy_toCore_of_not_mem (hmem : (row, col) ∉ frame.alive) :
    frame.toCore.enemy row col = EnemyShip.parkedAway :=
  if_neg hmem

@[simp] theorem toCore_spacePressed : frame.toCore.laser.spacePressed = frame.shot.fired := rfl

/-- In the first five thousand ticks nothing lands. -/
theorem formationRow_lt_of_early {ticks : ℕ} (hearly : ticks ≤ 5000) (row : Fin 3)
    (col : Fin 6) : formationRow row col ticks < 409 := by
  have hlast : descent (50 * col + 50 + ticks) ≤ descent 5300 := descent_mono (by omega)
  have hvalue : descent 5300 = 270 := by decide
  unfold formationRow
  omega

theorem enemyHit_toCore_iff :
    (frame.toCore.enemy row col).enemyHit = true ↔ (row, col) ∉ frame.alive := by
  by_cases hmem : (row, col) ∈ frame.alive
  · simp [enemy_toCore_of_mem hmem, hmem, formation, EnemyShip.onPath]
  · simp [enemy_toCore_of_not_mem hmem, hmem, EnemyShip.parkedAway]

theorem live_toCore_of_mem (hmem : (row, col) ∈ frame.alive) :
    (frame.toCore.enemy row col).enemyHit = false := by
  rw [enemy_toCore_of_mem hmem]
  rfl

theorem killedAll1_toCore (hsome : frame.alive ≠ []) : frame.toCore.killedAll1 = false := by
  obtain ⟨⟨row, col⟩, hmem⟩ := List.exists_mem_of_ne_nil _ hsome
  exact Core.killedAll1_eq_false rfl (live_toCore_of_mem hmem)

theorem above_toCore (hearly : frame.ticks ≤ 5000) (row : Fin 3) (col : Fin 6) :
    (frame.toCore.enemy row col).yPos.toNat < 409 := by
  by_cases hmem : (row, col) ∈ frame.alive
  · have hrow := formationRow_lt_of_early hearly row col
    rw [enemy_toCore_of_mem hmem, formation_yPos (by omega)]
    exact hrow
  · rw [enemy_toCore_of_not_mem hmem]
    decide

theorem died_toCore (hearly : frame.ticks ≤ 5000) : frame.toCore.died = false :=
  Core.died_eq_false_of_play rfl (above_toCore hearly)

theorem done_toCore (hearly : frame.ticks ≤ 5000) : frame.toCore.done = false :=
  Core.done_eq_false (died_toCore hearly) (Core.killedAll2_eq_false rfl)

section Hits

variable (hearly : frame.ticks ≤ 5000) (hmuzzle : frame.laserX.toNat ≤ 610)
include hearly hmuzzle

/-- `hits` is the hit test of the live ships. -/
theorem touched_toCore_iff (row : Fin 3) (col : Fin 6) :
    frame.toCore.Touched row col ↔ (row, col) ∈ frame.hits := by
  have hrow := formationRow_lt_of_early hearly row col
  have hlaserY : frame.toCore.laser.yPos.toNat = frame.shot.row := Shot.toLaser_yPos_toNat _ _
  by_cases hmem : (row, col) ∈ frame.alive
  · rw [Core.Touched, enemy_toCore_of_mem hmem]
    by_cases hlaunch : frame.shot.row = 441
    · have hnone : frame.hits = [] := by simp [hits, hlaunch]
      rw [Core.untouched_of_launch (by omega) (by rw [formation_yPos (by omega)]; omega), hnone]
      simp
    · have hx : (formation row col frame.ticks).xPos.toNat =
          column (50 * col + 50 + frame.ticks) := EnemyShip.onPath_xPos_toNat _ _ _
      have hbound := column_le (50 * col + 50 + frame.ticks)
      have hlaserX : frame.toCore.laser.xPos = frame.laserX := rfl
      rw [EnemyShip.laserHitTemp, HitController.temp_iff, overlap_iff, hx,
        formation_yPos (by omega), hlaserY, hlaserX]
      simp only [hits, beq_iff_eq, hlaunch, if_false, List.mem_filter, hmem, true_and, reached,
        Bool.and_eq_true, Bool.or_eq_true, Nat.ble_eq]
      omega
  · have haway : Wreck frame.toCore.laser EnemyShip.parkedAway := Or.inl rfl
    rw [Core.Touched, enemy_toCore_of_not_mem hmem, haway.untouched hmuzzle]
    simp only [Bool.false_eq_true, false_iff, hits]
    split
    · exact List.not_mem_nil
    · exact fun h => hmem (List.mem_of_mem_filter h)

theorem laserHit_toCore_iff : frame.toCore.laserHit = true ↔ frame.hits ≠ [] := by
  rw [Core.laserHit_iff]
  constructor
  · rintro (⟨_, row, col, htouched⟩ | ⟨hfight, _⟩)
    · exact List.ne_nil_of_mem ((touched_toCore_iff hearly hmuzzle row col).mp htouched)
    · cases hfight
  · intro hsome
    obtain ⟨⟨row, col⟩, hmem⟩ := List.exists_mem_of_ne_nil _ hsome
    exact Or.inl ⟨rfl, row, col, (touched_toCore_iff hearly hmuzzle row col).mpr hmem⟩

end Hits

section Step

variable (hearly : frame.ticks ≤ 5000) (hsome : frame.alive ≠ [])
include hearly hsome

/-- The tick moves the formation, the ship and the shot. -/
theorem next_true_toCore (hship : frame.ship.Reached) (hquiet : frame.toCore.Quiet)
    (keycode : Keycode) : frame.toCore.next true keycode = (frame.ticked keycode).toCore := by
  have hplay : frame.toCore.state = .play := rfl
  apply Core.ext
  · rw [Core.next_state, hquiet.died, killedAll1_toCore hsome]
    rfl
  · rfl
  · funext row col
    change (frame.toCore.next true keycode).enemy row col =
      (frame.ticked keycode).toCore.enemy row col
    have habove := above_toCore hearly row col
    have hhit := frame.toCore.next_enemyHit_iff true keycode row col
    rw [done_toCore hearly] at hhit
    by_cases hmem : (row, col) ∈ frame.alive
    · have hmem' : (row, col) ∈ (frame.ticked keycode).alive := hmem
      have huntouched := Core.untouched_of_no_hit hplay hquiet.laserHit row col
      have hlive := frame.toCore.next_enemy_live true keycode (live_toCore_of_mem hmem) huntouched
      rw [frame.toCore.next_enemy_tick keycode row col hplay, hlive,
        enemy_toCore_of_mem hmem, enemy_toCore_of_mem hmem',
        formation_next _ _ (formationRow_lt_of_early hearly row col)]
      rfl
    · have hmem' : (row, col) ∉ (frame.ticked keycode).alive := hmem
      have hdead := enemyHit_toCore_iff.mpr hmem
      rw [frame.toCore.next_enemy_destroyed true keycode row col hplay habove hdead,
        hhit.mpr ⟨rfl, Or.inl hdead⟩, enemy_toCore_of_not_mem hmem']
      rfl
  · exact frame.toCore.next_boss_of_not_fight true keycode (by simp [hplay])
  · exact Core.next_laser_of_tick hship (Or.inl hplay) rfl hquiet.laserHit keycode

/-- Between the ticks nothing changes unless the shot has reached a ship. -/
theorem rests_toCore (hinv : frame.toCore.Inv) (hmuzzle : frame.laserX.toNat ≤ 610)
    (hnone : frame.hits = []) : frame.toCore.next false keycode = frame.toCore := by
  have hplay : frame.toCore.state = .play := rfl
  have hquiet : frame.toCore.Quiet := by
    refine ⟨?_, died_toCore hearly⟩
    rw [Bool.eq_false_iff, ne_eq, laserHit_toCore_iff hearly hmuzzle]
    simp [hnone]
  have hremain := killedAll1_toCore hsome
  have hcalm : frame.toCore.Calm :=
    ⟨fun _ => ⟨hquiet, fun hkilled => by rw [hremain] at hkilled; cases hkilled⟩,
      fun hfight => (by cases hfight), fun hnot => absurd (Or.inl hplay) hnot⟩
  have htidy : frame.toCore.Tidy := by
    intro row col hhit
    rw [if_pos hplay]
    exact enemy_toCore_of_not_mem (enemyHit_toCore_iff.mp hhit)
  apply hcalm.at_rest hinv htidy
  rw [Core.next_state, hquiet.died, hremain]
  rfl

end Step

section Hit

theorem mem_hits_alive {target : Fin 3 × Fin 6} (hmem : target ∈ frame.hits) :
    target ∈ frame.alive := by
  unfold hits at hmem
  split at hmem
  · exact absurd hmem List.not_mem_nil
  · exact List.mem_of_mem_filter hmem

/-- A live ship that is reached is destroyed in the next cycle. -/
theorem kill_of_mem_hits (hearly : frame.ticks ≤ 5000) (hmuzzle : frame.laserX.toNat ≤ 610)
    (hmem : (row, col) ∈ frame.hits) (tick : Bool) :
    (frame.toCore.enemy row col).enemyHit = false ∧
      ((frame.toCore.next tick keycode).enemy row col).enemyHit = true := by
  constructor
  · exact live_toCore_of_mem (mem_hits_alive hmem)
  · rw [Core.next_enemyHit_iff, touched_toCore_iff hearly hmuzzle]
    exact ⟨done_toCore hearly, Or.inr hmem⟩

theorem mem_resolved_iff {target : Fin 3 × Fin 6} :
    target ∈ (frame.resolved keycode).alive ↔ target ∈ frame.alive ∧ target ∉ frame.hits := by
  simp [resolved]

theorem hits_resolved : (frame.resolved keycode).hits = [] := by
  simp [hits, resolved]

variable (keycode) (hearly : frame.ticks ≤ 5000) (hmuzzle : frame.laserX.toNat ≤ 610)
include hearly hmuzzle

/-- One cycle after the tick the registers of the ships that were reached are
set, and the laser is back. -/
theorem enemy_next_of_hit (row : Fin 3) (col : Fin 6) :
    (frame.toCore.next false keycode).enemy row col =
      (frame.toCore.enemy row col).withHit
        (!decide ((row, col) ∈ (frame.resolved keycode).alive)) := by
  have hplay : frame.toCore.state = .play := rfl
  have habove := above_toCore hearly row col
  have hset : ((frame.toCore.next false keycode).enemy row col).enemyHit =
      !decide ((row, col) ∈ (frame.resolved keycode).alive) := by
    rw [Bool.eq_iff_iff, Core.next_enemyHit_iff, done_toCore hearly, enemyHit_toCore_iff,
      touched_toCore_iff hearly hmuzzle, Bool.not_eq_true', decide_eq_false_iff_not,
      mem_resolved_iff]
    simp only [true_and]
    rw [not_and_or, not_not]
  by_cases hmem : (row, col) ∈ frame.alive
  · rw [frame.toCore.next_enemy_idle keycode row col hplay habove (live_toCore_of_mem hmem), hset]
  · rw [frame.toCore.next_enemy_destroyed false keycode row col hplay habove
      (enemyHit_toCore_iff.mpr hmem), hset, enemy_toCore_of_not_mem hmem]

theorem laser_next_of_hit (hship : frame.ship.Reached) (hhit : frame.hits ≠ []) :
    (frame.toCore.next false keycode).laser = (frame.resolved keycode).toCore.laser :=
  Core.next_laser_of_hit hship (Or.inl rfl) ((laserHit_toCore_iff hearly hmuzzle).mpr hhit) false
    keycode

/-- In the cycle after that they are in the corner. -/
theorem enemy_next_next (hinv : frame.toCore.Inv) (hsome : frame.alive ≠ [])
    (row : Fin 3) (col : Fin 6) :
    ((frame.toCore.next false keycode).next false keycode).enemy row col =
      (frame.resolved keycode).toCore.enemy row col := by
  have hinv' : (frame.toCore.next false keycode).Inv := hinv.next false keycode (by simp)
  have hquiet' : (frame.toCore.next false keycode).Quiet := hinv.next_quiet keycode
  have hplay' : (frame.toCore.next false keycode).state = .play := by
    rw [Core.next_state, died_toCore hearly, killedAll1_toCore hsome]
    rfl
  have hbefore := enemy_next_of_hit keycode hearly hmuzzle row col
  have habove' := Core.enemy_above hplay' hquiet'.died row col
  have hdone' : (frame.toCore.next false keycode).done = false := by
    obtain ⟨n, _, hplaying'⟩ := hinv'.play hplay'
    exact hplaying'.done hquiet'.died
  have hkeep := (frame.toCore.next false keycode).next_enemyHit_iff false keycode row col
  rw [hdone'] at hkeep
  by_cases hmem : (row, col) ∈ (frame.resolved keycode).alive
  · have hlive : ((frame.toCore.next false keycode).enemy row col).enemyHit = false := by
      rw [hbefore]
      simp [EnemyShip.withHit, hmem]
    have huntouched := Core.untouched_of_no_hit hplay' hquiet'.laserHit row col
    have hstay := Core.next_enemy_live _ false keycode hlive huntouched
    rw [Core.next_enemy_idle _ keycode row col hplay' habove' hlive, hstay, hbefore,
      enemy_toCore_of_mem (mem_resolved_iff.mp hmem).1, enemy_toCore_of_mem hmem]
    rfl
  · have hdead : ((frame.toCore.next false keycode).enemy row col).enemyHit = true := by
      rw [hbefore]
      simp [EnemyShip.withHit, hmem]
    rw [Core.next_enemy_destroyed _ false keycode row col hplay' habove' hdead,
      hkeep.mpr ⟨rfl, Or.inl hdead⟩, enemy_toCore_of_not_mem hmem]
    rfl

/-- The registers two cycles after the tick, apart from the screen. -/
theorem next_next_toCore (hship : frame.ship.Reached) (hhit : frame.hits ≠ [])
    (hinv : frame.toCore.Inv) (hsome : frame.alive ≠ []) :
    (frame.toCore.next false keycode).next false keycode =
      { (frame.resolved keycode).toCore with
        state := if (frame.resolved keycode).alive = [] then .bossLogo else .play } := by
  have hquiet' : (frame.toCore.next false keycode).Quiet := hinv.next_quiet keycode
  have hplay' : (frame.toCore.next false keycode).state = .play := by
    rw [Core.next_state, died_toCore hearly, killedAll1_toCore hsome]
    rfl
  have hboss' := frame.toCore.next_boss_of_not_fight false keycode (by simp [toCore])
  have hkilled' : (frame.toCore.next false keycode).killedAll1 =
      decide ((frame.resolved keycode).alive = []) := by
    rw [Bool.eq_iff_iff, decide_eq_true_eq,
      Core.killedAll1_iff _ (by rw [hboss']; rfl), List.eq_nil_iff_forall_not_mem, Prod.forall]
    simp only [enemy_next_of_hit keycode hearly hmuzzle, EnemyShip.withHit, Bool.not_eq_true',
      decide_eq_false_iff_not]
  apply Core.ext
  · rw [Core.next_state, hquiet'.died, hkilled', hplay']
    by_cases hlast : (frame.resolved keycode).alive = [] <;> simp [State.next, hlast]
  · rfl
  · funext row col
    exact enemy_next_next keycode hearly hmuzzle hinv hsome row col
  · exact Core.next_boss_of_not_fight _ false keycode (by simp [hplay'])
  · rw [Core.next_laser_of_idle (Or.inl hplay') hquiet'.laserHit]
    exact laser_next_of_hit keycode hearly hmuzzle hship hhit

end Hit

theorem alive_of_next (hremain : (frame.next keycode).alive ≠ []) : frame.alive ≠ [] := by
  intro hnone
  apply hremain
  unfold next
  split <;> simp [resolved, ticked, hnone]

/-- Over a frame that leaves ships alive play refines the frame machine. -/
theorem frame_toCore (hinv : frame.toCore.Inv) (hquiet : frame.toCore.Quiet)
    (hearly : frame.ticks < 5000) (hremain : (frame.next keycode).alive ≠ []) :
    frame.toCore.frame keycode = (frame.next keycode).toCore := by
  have hsome := alive_of_next hremain
  have htick := next_true_toCore hearly.le hsome hinv.ship hquiet keycode
  have hinv' : (frame.ticked keycode).toCore.Inv := by
    rw [← htick]
    exact hinv.next true keycode fun _ => hquiet
  have hearly' : (frame.ticked keycode).ticks ≤ 5000 := hearly
  unfold Core.frame
  rw [htick]
  -- without a hit the three idle cycles do nothing, with one the first two resolve it
  by_cases hnone : (frame.ticked keycode).hits = []
  · have hnext : frame.next keycode = frame.ticked keycode := by simp [next, hnone]
    rw [hnext, Function.iterate_fixed (rests_toCore hearly' hsome hinv' hinv'.muzzle.2 hnone)]
  · have hnext : frame.next keycode = (frame.ticked keycode).resolved keycode := by
      simp [next, hnone]
    rw [hnext] at hremain ⊢
    have hcalm := next_next_toCore keycode hearly' hinv'.muzzle.2 hinv'.ship hnone hinv' hsome
    rw [if_neg hremain] at hcalm
    have hinv'' : ((frame.ticked keycode).resolved keycode).toCore.Inv := by
      have hstep := (hinv'.next false keycode (by simp)).next false keycode (by simp)
      rw [hcalm] at hstep
      exact hstep
    change Core.next false keycode (Core.next false keycode (Core.next false keycode _)) = _
    rw [hcalm]
    exact rests_toCore hearly' hremain hinv'' hinv''.muzzle.2 hits_resolved

section Frames

/-- Several frames of the frame machine. The case split of `next` is repeated
here so that an evaluation decides each frame before it goes on. -/
def plays : List Keycode → PlayFrame → PlayFrame
  | [], frame => frame
  | keycode :: keys, frame =>
      if (frame.ticked keycode).hits.isEmpty then plays keys (frame.ticked keycode)
      else plays keys ((frame.ticked keycode).resolved keycode)

theorem plays_cons (keycode : Keycode) (keys : List Keycode) (frame : PlayFrame) :
    frame.plays (keycode :: keys) = (frame.next keycode).plays keys := by
  rw [plays, next]
  split <;> rfl

theorem alive_of_plays {keys : List Keycode} (hremain : (frame.plays keys).alive ≠ []) :
    frame.alive ≠ [] := by
  induction keys generalizing frame with
  | nil => exact hremain
  | cons keycode keys ih =>
      rw [plays_cons] at hremain
      exact alive_of_next (ih hremain)

@[simp] theorem next_ticks : (frame.next keycode).ticks = frame.ticks + 1 := by
  unfold next
  split <;> rfl

theorem plays_ticks {keys : List Keycode} :
    (frame.plays keys).ticks = frame.ticks + keys.length := by
  induction keys generalizing frame with
  | nil => rfl
  | cons keycode keys ih =>
      rw [plays_cons, ih, next_ticks, List.length_cons]
      omega

/-- Play refines the frame machine as long as ships are left. -/
theorem frames_toCore {keys : List Keycode} (hinv : frame.toCore.Inv)
    (hquiet : frame.toCore.Quiet) (hearly : frame.ticks + keys.length ≤ 5000)
    (hremain : (frame.plays keys).alive ≠ []) :
    frame.toCore.frames keys = (frame.plays keys).toCore := by
  induction keys generalizing frame with
  | nil => rfl
  | cons keycode keys ih =>
      rw [List.length_cons] at hearly
      rw [plays_cons] at hremain ⊢
      have hnext := frame_toCore hinv hquiet (show frame.ticks < 5000 by omega)
        (alive_of_plays hremain)
      obtain ⟨hinv', hquiet'⟩ := hinv.frame hquiet keycode
      rw [hnext] at hinv' hquiet'
      have hearly' : (frame.next keycode).ticks + keys.length ≤ 5000 := by
        rw [next_ticks]
        omega
      rw [Core.frames_cons, hnext]
      exact ih hinv' hquiet' hearly' hremain

end Frames

end PlayFrame

end Galaga
