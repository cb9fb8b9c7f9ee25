import Galaga.Game.BossFrames

/-! # Runs from a script

A script is a list of keys, one for each frame of four cycles. Enter is pressed
in the first cycle, so the frames begin with the first cycle of play. The last
two sections play a single shot, and a whole game that the boss wins.
-/

namespace Galaga

/-- The registers after a reset that finds them reset already. -/
def Game.afterReset : Game :=
  Game.step ⟨true, false, 0#8⟩ ⟨Core.resetRegs, fun _ => ⟨false, false⟩⟩

/-- The run with these inputs. -/
def Run.ofInputs (frameClk : ℕ → Bool) (keycode : ℕ → Keycode) : Run where
  state := fun n => Nat.rec Game.afterReset
    (fun m game => game.step ⟨false, frameClk m, keycode m⟩) n
  frameClk := frameClk
  keycode := keycode
  start := ⟨_, _, rfl, rfl⟩
  next := fun _ => rfl

/-- The key of each cycle. -/
def scriptKey (keys : List Keycode) : ℕ → Keycode
  | 0 => keyEnter
  | n + 1 => keys.getD (n / 4) 0#8

/-- The run in which every fourth cycle is a tick, from cycle 1 on. -/
def Run.scripted (keys : List Keycode) : Run := .ofInputs (fun n => n % 4 == 0) (scriptKey keys)

/-- The first cycle of play. -/
def PlayFrame.opening : PlayFrame where
  ticks := 0
  ship := UserShip.resetRegs
  shot := .parked
  laserX := 325#10
  alive := List.product (List.finRange 3) (List.finRange 6)

namespace Run

variable (keys : List Keycode)

theorem scripted_tick (n : ℕ) : (scripted keys).tick n = (n % 4 == 1) := by
  match n with
  | 0 => rfl
  | 1 => rfl
  | n + 2 =>
      rw [tick_add_two]
      change ((n + 1) % 4 == 0 && !(n % 4 == 0)) = _
      rw [Bool.eq_iff_iff]
      simp only [Bool.and_eq_true, beq_iff_eq, Bool.not_eq_true', beq_eq_false_iff_ne]
      omega

theorem scripted_ticks (start len : ℕ) :
    (scripted keys).trace.ticks start len = (start + len + 2) / 4 - (start + 2) / 4 := by
  induction len with
  | zero => rw [Nat.add_zero, Nat.sub_self]; rfl
  | succ len ih =>
      have htick : (scripted keys).trace.tick (start + len) = ((start + len) % 4 == 1) :=
        scripted_tick keys (start + len)
      rw [(scripted keys).trace.ticks_succ, ih, htick]
      by_cases hlast : (start + len) % 4 = 1
      · rw [hlast, beq_self_eq_true, Bool.toNat_true]
        omega
      · rw [beq_eq_false_iff_ne.mpr hlast, Bool.toNat_false]
        omega

theorem scripted_keycode {n i : ℕ} (hi : i < 4) :
    (scripted keys).keycode (1 + 4 * n + i) = keys.getD n 0#8 := by
  have hframe : (4 * n + i) / 4 = n := by omega
  rw [show 1 + 4 * n + i = 4 * n + i + 1 by omega]
  change keys.getD ((4 * n + i) / 4) 0#8 = _
  rw [hframe]

/-- Enter after the reset opens the game. -/
theorem core_one_of_enter (run : Run) (htick : run.tick 0 = false)
    (hkey : run.keycode 0 = keyEnter) : run.core 1 = PlayFrame.opening.toCore := by
  have hcore := run.core_succ 0
  rw [run.core_zero, htick, hkey] at hcore
  rw [hcore]
  apply Core.ext
  · rfl
  · rfl
  · funext row col
    have hmem : (row, col) ∈ PlayFrame.opening.alive := by
      simp [PlayFrame.opening, List.pair_mem_product]
    have hlive : ((Core.resetRegs.next false keyEnter).enemy row col).enemyHit = false := by
      have huntouched : ∀ row col, ¬ Core.resetRegs.Touched row col := by decide
      exact Core.resetRegs.next_enemy_live false keyEnter rfl (huntouched row col)
    change (Core.resetRegs.next false keyEnter).enemy row col = _
    rw [Core.next_enemy_of_not_play _ _ _ row col (by decide), hlive, homeShip_eq]
    exact (PlayFrame.enemy_toCore_of_mem hmem).symm
  · rfl
  · rfl

theorem scripted_core_one : (scripted keys).core 1 = PlayFrame.opening.toCore :=
  core_one_of_enter _ rfl rfl

/-- The tick of a scripted frame. -/
theorem scripted_core_tick (n : ℕ) :
    (scripted keys).core (1 + 4 * n + 1) =
      ((scripted keys).core (1 + 4 * n)).next true (keys.getD n 0#8) := by
  have hkey : (scripted keys).keycode (1 + 4 * n + 0) = keys.getD n 0#8 :=
    scripted_keycode keys (by omega)
  have htick : (scripted keys).tick (1 + 4 * n) = true := by
    rw [scripted_tick, beq_iff_eq]
    omega
  rw [core_succ, htick, ← hkey]
  rfl

/-- A cycle of a scripted frame after its tick. -/
theorem scripted_core_idle (n i : ℕ) (hlow : 0 < i) (hhigh : i < 4) :
    (scripted keys).core (1 + 4 * n + i + 1) =
      ((scripted keys).core (1 + 4 * n + i)).next false (keys.getD n 0#8) := by
  have htick : (scripted keys).tick (1 + 4 * n + i) = false := by
    rw [scripted_tick, beq_eq_false_iff_ne]
    omega
  rw [core_succ, htick, scripted_keycode keys hhigh]

theorem scripted_core_frame (n : ℕ) :
    (scripted keys).core (1 + 4 * (n + 1)) =
      ((scripted keys).core (1 + 4 * n)).frame (keys.getD n 0#8) := by
  have hend : 1 + 4 * (n + 1) = 1 + 4 * n + 3 + 1 := by omega
  rw [hend, scripted_core_idle keys n 3 (by omega) (by omega),
    scripted_core_idle keys n 2 (by omega) (by omega),
    scripted_core_idle keys n 1 (by omega) (by omega), scripted_core_tick]
  rfl

/-- The script is played frame by frame. -/
theorem scripted_core (done rest : List Keycode) :
    (scripted (done ++ rest)).core (1 + 4 * done.length) =
      PlayFrame.opening.toCore.frames done := by
  induction done using List.reverseRecOn generalizing rest with
  | nil => exact scripted_core_one _
  | append_singleton done keycode ih =>
      have hkey : (done ++ keycode :: rest).getD done.length 0#8 = keycode := by simp
      rw [List.length_append, List.length_singleton, scripted_core_frame, List.append_assoc, ih,
        List.singleton_append, hkey]
      rw [Core.frames_append]
      rfl

/-- Its frames begin with a quiet game. -/
theorem scripted_quiet (n : ℕ) : ((scripted keys).core (1 + 4 * n)).Quiet := by
  apply quiet_of_tick
  rw [scripted_tick, beq_iff_eq]
  omega

section Play

variable {done : List Keycode} (rest : List Keycode) (keycode : Keycode) (hlen : done.length < 5000)
  (hremain : (PlayFrame.opening.plays done).alive ≠ [])
include hlen hremain

/-- As long as ships are left, the script is played by the frame machine. -/
theorem scripted_play :
    (scripted (done ++ rest)).core (1 + 4 * done.length) =
      (PlayFrame.opening.plays done).toCore := by
  have hinv := (scripted (done ++ rest)).inv 1
  have hquiet := scripted_quiet (done ++ rest) 0
  rw [Nat.mul_zero, Nat.add_zero] at hquiet
  rw [scripted_core_one] at hinv hquiet
  rw [scripted_core]
  apply PlayFrame.frames_toCore hinv hquiet _ hremain
  change 0 + done.length ≤ 5000
  omega

/-- The cycle after the tick of the next frame. -/
theorem scripted_play_tick :
    (scripted (done ++ keycode :: rest)).core (1 + 4 * done.length + 1) =
      ((PlayFrame.opening.plays done).ticked keycode).toCore := by
  have hplay := scripted_play (keycode :: rest) hlen hremain
  have hinv := (scripted (done ++ keycode :: rest)).inv (1 + 4 * done.length)
  have hquiet := scripted_quiet (done ++ keycode :: rest) done.length
  have hkey : (done ++ keycode :: rest).getD done.length 0#8 = keycode := by simp
  rw [hplay] at hinv hquiet
  rw [scripted_core_tick, hplay, hkey]
  apply PlayFrame.next_true_toCore _ hremain hinv.ship hquiet
  rw [PlayFrame.plays_ticks]
  change 0 + done.length ≤ 5000
  omega

/-- If the shot reaches nothing then, nothing changes up to the next tick. -/
theorem scripted_play_calm (hnone : ((PlayFrame.opening.plays done).ticked keycode).hits = [])
    {i : ℕ} (hi : i < 4) :
    (scripted (done ++ keycode :: rest)).core (1 + 4 * done.length + 1 + i) =
      ((PlayFrame.opening.plays done).ticked keycode).toCore := by
  have htick := scripted_play_tick rest keycode hlen hremain
  have hearly : ((PlayFrame.opening.plays done).ticked keycode).ticks ≤ 5000 := by
    change (PlayFrame.opening.plays done).ticks + 1 ≤ 5000
    rw [PlayFrame.plays_ticks]
    change 0 + done.length + 1 ≤ 5000
    omega
  induction i with
  | zero => exact htick
  | succ i ih =>
      have hinv := (scripted (done ++ keycode :: rest)).inv (1 + 4 * done.length + 1 + i)
      rw [ih (by omega)] at hinv
      rw [show 1 + 4 * done.length + 1 + (i + 1) = 1 + 4 * done.length + (i + 1) + 1 by omega,
        scripted_core_idle _ done.length (i + 1) (Nat.succ_pos i) hi,
        show 1 + 4 * done.length + (i + 1) = 1 + 4 * done.length + 1 + i by omega, ih (by omega)]
      exact PlayFrame.rests_toCore hearly hremain hinv hinv.muzzle.2 hnone

/-- A ship that is reached after that tick is destroyed at the next edge. -/
theorem scripted_kill {row : Fin 3} {col : Fin 6}
    (hmem : (row, col) ∈ ((PlayFrame.opening.plays done).ticked keycode).hits) :
    (((scripted (done ++ keycode :: rest)).core (1 + 4 * done.length + 1)).enemy row
        col).enemyHit = false ∧
      (((scripted (done ++ keycode :: rest)).core (1 + 4 * done.length + 2)).enemy row
        col).enemyHit = true := by
  have htick := scripted_play_tick rest keycode hlen hremain
  have hinv := (scripted (done ++ keycode :: rest)).inv (1 + 4 * done.length + 1)
  rw [htick] at hinv
  rw [(scripted (done ++ keycode :: rest)).core_succ (1 + 4 * done.length + 1), htick]
  apply PlayFrame.kill_of_mem_hits _ hinv.muzzle.2 hmem
  change (PlayFrame.opening.plays done).ticks + 1 ≤ 5000
  rw [PlayFrame.plays_ticks]
  change 0 + done.length + 1 ≤ 5000
  omega

end Play

/-- A script whose shots have reached nothing so far. -/
theorem scripted_calm {count : ℕ} (hlen : count ≤ keys.length) (hcount : count ≤ 5000)
    (hcalm : ∀ f < count, (PlayFrame.opening.plays (keys.take f)).alive ≠ [] ∧
      ((PlayFrame.opening.plays (keys.take f)).ticked (keys.getD f 0#8)).hits = [])
    {n : ℕ} (hn : n < 4 * count) :
    (scripted keys).core (2 + n) =
      ((PlayFrame.opening.plays (keys.take (n / 4))).ticked (keys.getD (n / 4) 0#8)).toCore := by
  have hframe : n / 4 < count := by omega
  obtain ⟨hremain, hnone⟩ := hcalm (n / 4) hframe
  have hlength : (keys.take (n / 4)).length = n / 4 := List.length_take_of_le (by omega)
  have hsplit : keys.take (n / 4) ++ keys.getD (n / 4) 0#8 :: keys.drop (n / 4 + 1) = keys := by
    rw [List.getD_eq_getElem?_getD, List.getElem?_eq_getElem (by omega), Option.getD_some,
      ← List.drop_eq_getElem_cons, List.take_append_drop]
  have hcore := scripted_play_calm (keys.drop (n / 4 + 1)) (keys.getD (n / 4) 0#8)
    (by omega) hremain hnone (show n % 4 < 4 by omega)
  rw [hsplit, hlength] at hcore
  rw [← hcore]
  congr 1
  omega

end Run

section FirstShot

/-- A single press of Space in the first frame of a game. -/
def firstShot : List Keycode := keySpace :: List.replicate 64 0#8

/-- The shot climbs for sixty-four ticks and then reaches one ship. -/
theorem firstShot_calm : ∀ f < 64, (PlayFrame.opening.plays (firstShot.take f)).alive ≠ [] ∧
    ((PlayFrame.opening.plays (firstShot.take f)).ticked (firstShot.getD f 0#8)).hits = [] := by
  decide +kernel

def firstHit : PlayFrame where
  ticks := 65
  ship := ⟨322#10, 439#10, 0#10, 0#10⟩
  shot := .flying ⟨63, by decide⟩
  laserX := 325#10
  alive := PlayFrame.opening.alive

theorem ticked_firstShot :
    (PlayFrame.opening.plays (firstShot.take 64)).ticked 0#8 = firstHit := by
  decide +kernel

theorem hits_firstHit : firstHit.hits = [(2, 4)] := by
  decide +kernel

theorem laserHit_firstHit : firstHit.toCore.laserHit = true := by
  rw [PlayFrame.laserHit_toCore_iff (by decide) (by decide), hits_firstHit]
  exact List.cons_ne_nil _ _

theorem length_firstShot : (firstShot.take 64).length < 5000 := by
  decide

theorem alive_firstShot : (PlayFrame.opening.plays (firstShot.take 64)).alive ≠ [] := by
  decide +kernel

/-- The cycle in which it reaches the ship. -/
theorem scripted_firstHit : (Run.scripted firstShot).core 258 = firstHit.toCore := by
  have htick := Run.scripted_play_tick [] 0#8 length_firstShot alive_firstShot
  rw [← ticked_firstShot]
  exact htick

/-- The next one, in which that ship is destroyed. -/
theorem scripted_firstKill :
    (((Run.scripted firstShot).core 258).enemy 2 4).enemyHit = false ∧
      (((Run.scripted firstShot).core 259).enemy 2 4).enemyHit = true := by
  have hmem : (2, 4) ∈ ((PlayFrame.opening.plays (firstShot.take 64)).ticked 0#8).hits := by
    rw [ticked_firstShot, hits_firstHit]
    exact List.mem_cons_self
  have hkill := Run.scripted_kill [] 0#8 length_firstShot alive_firstShot hmem
  exact hkill

end FirstShot

section Defeat

/-- To the right, and Space until a single ship is left. -/
def conquest : List Keycode := List.replicate 61 keyD ++ List.replicate 1806 keySpace

def lastShip : PlayFrame where
  ticks := 1867
  ship := ⟨444#10, 439#10, 0#10, 0#10⟩
  shot := .flying ⟨63, by decide⟩
  laserX := 452#10
  alive := [(⟨1, by decide⟩, ⟨1, by decide⟩)]

theorem plays_conquest : PlayFrame.opening.plays conquest = lastShip := by
  decide +kernel

/-- To the left, below the homes of the enemies, while the logo is shown. -/
def walk : List Keycode := List.replicate 100 keyA ++ [0#8]

def walked : UserShip := ⟨244#10, 439#10, 0#10, 0#10⟩

/-- Space held, apart from three frames that set the height of the last shot. -/
def duel : List Keycode :=
  List.replicate 2 keySpace ++ List.replicate 3 0#8 ++ List.replicate 203 keySpace

def duelOpening : BossFrame := ⟨walked, .parked, 249#10, Boss.home false⟩

/-- The boss is one tick above the bottom row. -/
def lastDuel : BossFrame where
  ship := walked
  shot := .flying ⟨94, by decide⟩
  laserX := 252#10
  boss := ⟨340#10, 408#10, 1019#10, 2#10, false⟩

theorem plays_duel : duelOpening.plays duel = some lastDuel := by
  decide +kernel

/-- The script that reaches the boss, and then these keys. -/
def fight (keys : List Keycode) : List Keycode :=
  conquest ++ keySpace :: (walk ++ keyEnter :: keys)

theorem fight_eq_append (keys : List Keycode) :
    fight keys = (conquest ++ keySpace :: walk) ++ keyEnter :: keys := by
  rw [fight, List.append_assoc, List.cons_append]

/-- The logo is shown, and the ship is on its way. -/
theorem frames_walked (hinv : PlayFrame.opening.toCore.Inv)
    (hquiet : PlayFrame.opening.toCore.Quiet) :
    PlayFrame.opening.toCore.frames (conquest ++ keySpace :: walk) = logoScreen walked := by
  have hconquest : PlayFrame.opening.toCore.frames conquest = lastShip.toCore := by
    rw [← plays_conquest]
    apply PlayFrame.frames_toCore hinv hquiet (by decide +kernel)
    rw [plays_conquest]
    decide
  obtain ⟨hinv₁, hquiet₁⟩ := hinv.frames hquiet conquest
  rw [hconquest] at hinv₁ hquiet₁
  have hkill : lastShip.toCore.frame keySpace = logoScreen (lastShip.ship.next true keySpace) :=
    PlayFrame.frame_last hinv₁ hquiet₁ (by decide) (by decide) (by decide) (by decide +kernel)
  obtain ⟨hinv₂, _⟩ := hinv₁.frame hquiet₁ keySpace
  rw [hkill] at hinv₂
  have hship : walk.foldl (fun ship keycode => ship.next true keycode)
      (lastShip.ship.next true keySpace) = walked := by
    decide +kernel
  rw [Core.frames_append, hconquest, Core.frames_cons, hkill,
    frames_logoScreen hinv₂ (by decide +kernel), hship]

theorem frames_fight {keys : List Keycode} {after : BossFrame}
    (hplays : duelOpening.plays keys = some after) (hinv : PlayFrame.opening.toCore.Inv)
    (hquiet : PlayFrame.opening.toCore.Quiet) :
    PlayFrame.opening.toCore.frames (fight keys) = after.toCore := by
  have hwalked := frames_walked hinv hquiet
  obtain ⟨hinv₁, hquiet₁⟩ := hinv.frames hquiet (conquest ++ keySpace :: walk)
  rw [hwalked] at hinv₁ hquiet₁
  have henter : (logoScreen walked).frame keyEnter = duelOpening.toCore :=
    frame_logoScreen_enter hinv₁
  obtain ⟨hinv₂, hquiet₂⟩ := hinv₁.frame quiet_logoScreen keyEnter
  rw [henter] at hinv₂ hquiet₂
  rw [fight_eq_append, Core.frames_append, hwalked, Core.frames_cons, henter]
  exact (BossFrame.frames_toCore hinv₂ hquiet₂ rfl hplays).1

section Duel

variable (keys : List Keycode)

theorem length_conquest_walk : (conquest ++ keySpace :: walk).length = 1969 := by
  simp only [conquest, walk, List.length_append, List.length_cons, List.length_replicate,
    List.length_nil]

/-- The last frame of the logo screen. -/
theorem scripted_logo : (Run.scripted (fight keys)).core 7877 = logoScreen walked := by
  have hinv := (Run.scripted (fight keys)).inv 1
  have hquiet := Run.scripted_quiet (fight keys) 0
  rw [Nat.mul_zero, Nat.add_zero] at hquiet
  rw [Run.scripted_core_one] at hinv hquiet
  have hcore := Run.scripted_core (conquest ++ keySpace :: walk) (keyEnter :: keys)
  rw [← fight_eq_append, length_conquest_walk, frames_walked hinv hquiet] at hcore
  exact hcore

theorem fight_getD {n : ℕ} (hn : 1969 ≤ n) :
    (fight keys).getD n 0#8 = (keyEnter :: keys).getD (n - 1969) 0#8 := by
  have hlength := length_conquest_walk
  rw [fight_eq_append, List.getD_eq_getElem?_getD, List.getElem?_append_right (by omega), hlength,
    List.getD_eq_getElem?_getD]

/-- Its Enter opens the fight at once. -/
theorem scripted_duel : (Run.scripted (fight keys)).core 7878 = duelOpening.toCore := by
  have hinv := (Run.scripted (fight keys)).inv 7877
  rw [scripted_logo] at hinv
  have htick := Run.scripted_core_tick (fight keys) 1969
  rw [scripted_logo, fight_getD keys le_rfl] at htick
  exact htick.trans (next_logoScreen_enter hinv)

end Duel

/-- The frames of a fight that goes on, in a run. -/
theorem scripted_fight {keys : List Keycode} {after : BossFrame}
    (hplays : duelOpening.plays keys = some after) (rest : List Keycode) :
    (Run.scripted (fight keys ++ rest)).core (1 + 4 * (fight keys).length) = after.toCore := by
  have hinv := (Run.scripted (fight keys ++ rest)).inv 1
  have hquiet := Run.scripted_quiet (fight keys ++ rest) 0
  rw [Nat.mul_zero, Nat.add_zero] at hquiet
  rw [Run.scripted_core_one] at hinv hquiet
  rw [Run.scripted_core, frames_fight hplays hinv hquiet]

/-- The cycle after the tick of the next frame. -/
theorem scripted_fight_tick {keys : List Keycode} {after : BossFrame}
    (hplays : duelOpening.plays keys = some after) (hlive : after.boss.enemyHit = false)
    (rest : List Keycode) :
    (Run.scripted (fight keys ++ rest)).core (1 + 4 * (fight keys).length + 1) =
      (after.ticked (rest.headD 0#8)).toCore := by
  have hbefore := scripted_fight hplays rest
  have hinv := (Run.scripted (fight keys ++ rest)).inv (1 + 4 * (fight keys).length)
  have hquiet := Run.scripted_quiet (fight keys ++ rest) (fight keys).length
  have hkey : (fight keys ++ rest).getD (fight keys).length 0#8 = rest.headD 0#8 := by
    cases rest <;> simp
  rw [hbefore] at hinv hquiet
  rw [Run.scripted_core_tick, hbefore, hkey, BossFrame.next_true_toCore hinv.ship hlive hquiet]

/-- The script up to the landing of the boss. -/
def defeat : List Keycode := conquest ++ keySpace :: (walk ++ keyEnter :: duel)

/-- The boss has landed while the last shot passes over the homes. -/
def landing : BossFrame where
  ship := walked
  shot := .flying ⟨95, by decide⟩
  laserX := 252#10
  boss := ⟨335#10, 410#10, 5#10, 2#10, false⟩

/-- The whole game: the boss lands, and Enter is pressed in the next frame. -/
def defeatScript : List Keycode := defeat ++ [keySpace, keyEnter]

theorem scripted_landing :
    (Run.scripted defeatScript).core (1 + 4 * defeat.length + 1) = landing.toCore := by
  have hfight : defeat = fight duel := rfl
  have htick := scripted_fight_tick plays_duel rfl [keySpace, keyEnter]
  rw [defeatScript, hfight, htick]
  congr 1

theorem defeatScript_enter : defeatScript.getD (defeat.length + 1) 0#8 = keyEnter := by
  rw [defeatScript, List.getD_eq_getElem?_getD, List.getElem?_append_right (Nat.le_succ _)]
  simp

/-- The frame of the landing ends on the game over screen. -/
theorem scripted_gameover :
    (Run.scripted defeatScript).core (1 + 4 * (defeat.length + 1)) =
      (Core.next false keySpace)^[3] landing.toCore := by
  have hspace : defeatScript.getD defeat.length 0#8 = keySpace := by simp [defeatScript]
  rw [← scripted_landing, Run.scripted_core_frame, hspace, Run.scripted_core_tick, hspace]
  rfl

/-- On the next start screen an enemy is still marked as destroyed. -/
theorem scripted_restart :
    ((Run.scripted defeatScript).core (1 + 4 * (defeat.length + 1) + 1)).state = .start ∧
      (((Run.scripted defeatScript).core (1 + 4 * (defeat.length + 1) + 1)).enemy 1
        4).enemyHit = true := by
  rw [Run.scripted_core_tick, defeatScript_enter, scripted_gameover]
  decide +kernel

end Defeat

end Galaga
