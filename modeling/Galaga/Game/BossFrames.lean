import Galaga.Game.Frames

/-! # From the last kill to the boss, one frame at a time

The logo screen and the boss fight with all enemies destroyed, refined by
machines over frames as play is.
-/

namespace Galaga

/-- The logo screen at rest. -/
def logoScreen (ship : UserShip) : Core where
  state := .bossLogo
  ship := ship
  rows := fun row col => Core.homeShip row col true
  boss := Boss.home false
  laser := Shot.parked.toLaser (ship.xPos + 5#10)

/-- The boss fight, between two frames. -/
structure BossFrame where
  ship : UserShip
  shot : Shot
  laserX : Coord
  boss : Boss
deriving DecidableEq

namespace BossFrame

/-- The registers of such a fight. -/
def toCore (frame : BossFrame) : Core where
  state := .bossFight
  ship := frame.ship
  rows := fun row col => Core.homeShip row col true
  boss := frame.boss
  laser := frame.shot.toLaser frame.laserX

/-- The tick itself. -/
def ticked (keycode : Keycode) (frame : BossFrame) : BossFrame where
  ship := frame.ship.next true keycode
  shot := frame.shot.onTick (keycode == keySpace)
  laserX := frame.shot.columnOnTick (keycode == keySpace) frame.ship.xPos frame.laserX
  boss := frame.boss.next true true keycode

/-- The fight goes on: the boss is neither hit nor at the bottom row. -/
def goesOn (frame : BossFrame) : Bool :=
  !frame.boss.laserHitTemp frame.laserX (BitVec.ofNat 10 frame.shot.row) &&
    decide (frame.boss.yPos < 409#10)

/-- One frame after which the fight goes on. -/
def next (keycode : Keycode) (frame : BossFrame) : Option BossFrame :=
  if (frame.ticked keycode).goesOn then some (frame.ticked keycode) else none

/-- Several of them. -/
def plays : List Keycode → BossFrame → Option BossFrame
  | [], frame => some frame
  | keycode :: keys, frame => (frame.next keycode).bind (plays keys)

variable {frame after : BossFrame} {keycode : Keycode}

theorem enemy_toCore (row : Fin 3) (col : Fin 6) :
    frame.toCore.enemy row col = Core.homeShip row col true := rfl

theorem killedAll1_toCore (hlive : frame.boss.enemyHit = false) :
    frame.toCore.killedAll1 = true :=
  (frame.toCore.killedAll1_iff hlive).mpr fun _ _ => rfl

theorem quiet_toCore (hgoes : frame.goesOn = true) : frame.toCore.Quiet := by
  rw [goesOn, Bool.and_eq_true, Bool.not_eq_true', decide_eq_true_eq] at hgoes
  constructor
  · rw [Bool.eq_false_iff]
    intro hhit
    rcases frame.toCore.laserHit_iff.mp hhit with ⟨hplay, _⟩ | ⟨_, htouched⟩
    · cases hplay
    · change frame.boss.laserHitTemp frame.laserX (BitVec.ofNat 10 frame.shot.row) = true
        at htouched
      rw [hgoes.1] at htouched
      cases htouched
  · exact Core.died_eq_false_of_bossFight rfl hgoes.2

theorem ticked_live (hlive : frame.boss.enemyHit = false)
    (habove : frame.boss.yPos.toNat < 409) (keycode : Keycode) :
    (frame.ticked keycode).boss.enemyHit = false := by
  rw [ticked, Boss.next_tick hlive habove]
  exact hlive

/-- The tick moves the boss, the ship and the shot. -/
theorem next_true_toCore (hship : frame.ship.Reached) (hlive : frame.boss.enemyHit = false)
    (hquiet : frame.toCore.Quiet) (keycode : Keycode) :
    frame.toCore.next true keycode = (frame.ticked keycode).toCore := by
  have hfight : frame.toCore.state = .bossFight := rfl
  have hkilled : frame.toCore.killedAll2 = false := Core.killedAll2_eq_false hlive
  have hdone := Core.done_eq_false hquiet.died hkilled
  have habove : frame.boss.yPos.toNat < 409 := Core.boss_above hfight hquiet.died
  apply Core.ext
  · rw [Core.next_state, hquiet.died, hkilled]
    rfl
  · rfl
  · funext row col
    change (frame.toCore.next true keycode).enemy row col =
      (frame.ticked keycode).toCore.enemy row col
    have hhit := (frame.toCore.next_enemyHit_iff true keycode row col).mpr ⟨hdone, Or.inl rfl⟩
    rw [frame.toCore.next_enemy_of_not_play true keycode row col (by simp [hfight]), hhit,
      enemy_toCore]
  · have hstay : (frame.toCore.next true keycode).boss.enemyHit = false :=
      frame.toCore.next_boss_live true keycode hlive
        (Core.boss_untouched_of_no_hit hfight hquiet.laserHit)
    rw [Core.next_boss_tick _ keycode hfight, hstay]
    change (frame.boss.next true true keycode).withHit false = frame.boss.next true true keycode
    rw [← ticked_live hlive habove keycode]
    rfl
  · exact Core.next_laser_of_tick hship (Or.inr hfight) rfl hquiet.laserHit keycode

/-- Between the ticks of a fight that goes on nothing changes. -/
theorem rests_toCore (hinv : frame.toCore.Inv) (hlive : frame.boss.enemyHit = false)
    (hquiet : frame.toCore.Quiet) : frame.toCore.next false keycode = frame.toCore := by
  have hfight : frame.toCore.state = .bossFight := rfl
  have hcalm : frame.toCore.Calm :=
    ⟨fun hplay => (by cases hplay), fun _ => ⟨hquiet, hlive⟩,
      fun hnot => absurd (Or.inr hfight) hnot⟩
  have htidy : frame.toCore.Tidy := by
    intro row col _
    rw [if_neg (by simp [hfight]), enemy_toCore]
  apply hcalm.at_rest hinv htidy
  have hkilled : frame.toCore.killedAll2 = false := Core.killedAll2_eq_false hlive
  rw [Core.next_state, hquiet.died, hkilled]
  rfl

/-- The fight opens with the boss at home and the laser at the ship. -/
theorem quiet_opening (ship : UserShip) (laserX : Coord) :
    (BossFrame.mk ship .parked laserX (Boss.home false)).toCore.Quiet := by
  have hrow : (Shot.parked.toLaser laserX).yPos.toNat = 441 := Shot.toLaser_yPos_toNat _ _
  have hhigh : (Boss.home false).yPos.toNat < 409 := by decide
  constructor
  · rw [Bool.eq_false_iff, ne_eq, Core.laserHit_iff]
    rintro (⟨hplay, _⟩ | ⟨_, htouched⟩)
    · cases hplay
    · change (Boss.home false).laserHitTemp (Shot.parked.toLaser laserX).xPos
        (Shot.parked.toLaser laserX).yPos = true at htouched
      rw [Core.boss_untouched_of_launch hrow hhigh] at htouched
      cases htouched
  · exact Core.died_eq_false_of_bossFight rfl hhigh

/-- Over a frame after which it goes on the fight refines the frame machine. -/
theorem frame_toCore (hinv : frame.toCore.Inv) (hquiet : frame.toCore.Quiet)
    (hlive : frame.boss.enemyHit = false) (hnext : frame.next keycode = some after) :
    frame.toCore.frame keycode = after.toCore ∧ after.boss.enemyHit = false := by
  unfold next at hnext
  split at hnext
  next hgoes =>
    cases hnext
    have habove : frame.boss.yPos.toNat < 409 := Core.boss_above rfl hquiet.died
    have hlive' := ticked_live hlive habove keycode
    have htick := next_true_toCore hinv.ship hlive hquiet keycode
    have hinv' : (frame.ticked keycode).toCore.Inv := by
      rw [← htick]
      exact hinv.next true keycode fun _ => hquiet
    refine ⟨?_, hlive'⟩
    unfold Core.frame
    rw [htick, Function.iterate_fixed (rests_toCore hinv' hlive' (quiet_toCore hgoes))]
  next => cases hnext

theorem frames_toCore {keys : List Keycode} (hinv : frame.toCore.Inv)
    (hquiet : frame.toCore.Quiet) (hlive : frame.boss.enemyHit = false)
    (hplays : frame.plays keys = some after) :
    frame.toCore.frames keys = after.toCore ∧ after.boss.enemyHit = false := by
  induction keys generalizing frame with
  | nil =>
      cases hplays
      exact ⟨rfl, hlive⟩
  | cons keycode keys ih =>
      rw [plays, Option.bind_eq_some_iff] at hplays
      obtain ⟨middle, hnext, hplays⟩ := hplays
      obtain ⟨hframe, hlive'⟩ := frame_toCore hinv hquiet hlive hnext
      obtain ⟨hinv', hquiet'⟩ := hinv.frame hquiet keycode
      rw [hframe] at hinv' hquiet'
      rw [Core.frames_cons, hframe]
      exact ih hinv' hquiet' hlive' hplays

end BossFrame

section Logo

variable {ship : UserShip} {keycode : Keycode}

theorem done_logoScreen : (logoScreen ship).done = false :=
  Core.done_of_bossLogo rfl rfl

theorem quiet_logoScreen : (logoScreen ship).Quiet := by
  constructor
  · rw [Bool.eq_false_iff, ne_eq, Core.laserHit_iff]
    simp [logoScreen]
  · exact Core.died_eq_false_of_not_fighting (by simp [Core.Fighting, logoScreen])

/-- What a cycle of the logo screen does, whatever the laser. -/
theorem next_of_bossLogo {core : Core} (hinv : core.Inv) (hstate : core.state = .bossLogo)
    (tick : Bool) (hkey : keycode ≠ keyEnter) :
    core.next tick keycode =
      { logoScreen (core.ship.next tick keycode) with
        laser := Shot.parked.toLaser (core.ship.xPos + 5#10) } := by
  obtain ⟨hall, hboss⟩ := hinv.bossLogo hstate
  have hdone := Core.done_of_bossLogo hstate hboss
  have hnot : ¬ core.Fighting := by simp [Core.Fighting, hstate]
  apply Core.ext
  · rw [Core.next_state, hstate]
    simp [State.next, hkey, logoScreen]
  · rfl
  · funext row col
    change (core.next tick keycode).enemy row col = Core.homeShip row col true
    have hhit := (core.next_enemyHit_iff tick keycode row col).mpr ⟨hdone, Or.inl (hall row col)⟩
    rw [core.next_enemy_of_not_play tick keycode row col (by simp [hstate]), hhit]
  · exact core.next_boss_of_not_fight tick keycode (by simp [hstate])
  · exact Core.next_laser_of_not_fighting hinv.ship hnot tick keycode

/-- A frame of the logo screen moves the ship. -/
theorem frame_logoScreen (hinv : (logoScreen ship).Inv) (hkey : keycode ≠ keyEnter) :
    (logoScreen ship).frame keycode = logoScreen (ship.next true keycode) := by
  have htick := next_of_bossLogo hinv rfl true hkey
  have hinv' := hinv.next true keycode fun _ => quiet_logoScreen
  have hsecond := next_of_bossLogo hinv' (by rw [htick]; rfl) false hkey
  have hinv'' := hinv'.next false keycode (by simp)
  have hship : ((logoScreen ship).next true keycode).ship = ship.next true keycode := rfl
  rw [hship] at hsecond
  have hrest : (logoScreen (ship.next true keycode)).next false keycode =
      logoScreen (ship.next true keycode) := by
    have hthird := next_of_bossLogo hinv'' (by rw [hsecond]; rfl) false hkey
    rw [hsecond] at hthird
    exact hthird
  change Core.next false keycode (Core.next false keycode (Core.next false keycode _)) = _
  rw [hsecond]
  change Core.next false keycode (Core.next false keycode (logoScreen (ship.next true keycode))) = _
  rw [hrest, hrest]

theorem frames_logoScreen {keys : List Keycode} (hinv : (logoScreen ship).Inv)
    (hkeys : ∀ keycode ∈ keys, keycode ≠ keyEnter) :
    (logoScreen ship).frames keys =
      logoScreen (keys.foldl (fun ship keycode => ship.next true keycode) ship) := by
  induction keys generalizing ship with
  | nil => rfl
  | cons keycode keys ih =>
      have hframe := frame_logoScreen hinv (hkeys keycode List.mem_cons_self)
      obtain ⟨hinv', _⟩ := hinv.frame quiet_logoScreen keycode
      rw [hframe] at hinv'
      rw [Core.frames_cons, hframe]
      exact ih hinv' fun key hkey => hkeys key (List.mem_cons_of_mem _ hkey)

/-- Enter opens the boss fight. The laser is parked where the ship was. -/
theorem next_logoScreen_enter (hinv : (logoScreen ship).Inv) :
    (logoScreen ship).next true keyEnter =
      (BossFrame.mk (ship.next true keyEnter) .parked (ship.xPos + 5#10)
        (Boss.home false)).toCore := by
  apply Core.ext
  · rfl
  · rfl
  · funext row col
    change ((logoScreen ship).next true keyEnter).enemy row col = Core.homeShip row col true
    have hhit := ((logoScreen ship).next_enemyHit_iff true keyEnter row col).mpr
      ⟨done_logoScreen, Or.inl rfl⟩
    rw [Core.next_enemy_of_not_play _ true keyEnter row col (by simp [logoScreen]), hhit]
  · exact Core.next_boss_of_not_fight _ true keyEnter (by simp [logoScreen])
  · exact Core.next_laser_of_not_fighting hinv.ship (by simp [Core.Fighting, logoScreen]) true _

theorem frame_logoScreen_enter (hinv : (logoScreen ship).Inv) :
    (logoScreen ship).frame keyEnter =
      (BossFrame.mk (ship.next true keyEnter) .parked (ship.xPos + 5#10)
        (Boss.home false)).toCore := by
  have htick := next_logoScreen_enter hinv
  have hinv' := hinv.next true keyEnter fun _ => quiet_logoScreen
  have hquiet' := BossFrame.quiet_opening (ship.next true keyEnter) (ship.xPos + 5#10)
  rw [htick] at hinv'
  unfold Core.frame
  rw [htick, Function.iterate_fixed (BossFrame.rests_toCore hinv' rfl hquiet')]

/-- The frame of the last kill ends on the logo screen. -/
theorem PlayFrame.frame_last {frame : PlayFrame} (hinv : frame.toCore.Inv)
    (hquiet : frame.toCore.Quiet) (hearly : frame.ticks < 5000) (hsome : frame.alive ≠ [])
    (hkey : keycode ≠ keyEnter) (hlast : (frame.next keycode).alive = []) :
    frame.toCore.frame keycode = logoScreen (frame.ship.next true keycode) := by
  have htick := next_true_toCore hearly.le hsome hinv.ship hquiet keycode
  have hinv' : (frame.ticked keycode).toCore.Inv := by
    rw [← htick]
    exact hinv.next true keycode fun _ => hquiet
  have hearly' : (frame.ticked keycode).ticks ≤ 5000 := hearly
  have hhit : (frame.ticked keycode).hits ≠ [] := by
    intro hnone
    have hnext : frame.next keycode = frame.ticked keycode := by simp [next, hnone]
    rw [hnext] at hlast
    exact hsome hlast
  have hnext : frame.next keycode = (frame.ticked keycode).resolved keycode := by
    simp [next, hhit]
  rw [hnext] at hlast
  have hcleared := next_next_toCore keycode hearly' hinv'.muzzle.2 hinv'.ship hhit hinv' hsome
  rw [if_pos hlast] at hcleared
  have hinv'' := (hinv'.next false keycode (by simp)).next false keycode (by simp)
  have hlogo := next_of_bossLogo hinv'' (by rw [hcleared]) false hkey
  unfold Core.frame
  rw [htick]
  change Core.next false keycode (Core.next false keycode (Core.next false keycode _)) = _
  rw [hlogo, hcleared]
  rfl

end Logo

end Galaga
