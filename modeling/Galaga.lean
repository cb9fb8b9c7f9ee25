import Galaga.Clocked.Trace
import Galaga.Clocked.Press
import Galaga.Clocked.Work
import Galaga.Clocked.Record
import Galaga.Clocked.Cell
import Galaga.Clocked.LeadsTo
import Galaga.Raster.Rect
import Galaga.Raster.Painter
import Galaga.Raster.Bitmap
import Galaga.Raster.Scan
import Galaga.Memory.Block
import Galaga.Model.Basic
import Galaga.Model.UserShip
import Galaga.Model.EnemyShip
import Galaga.Model.Boss
import Galaga.Model.UserLaser
import Galaga.Model.GameController
import Galaga.Model.Lab8
import Galaga.Model.Drawing
import Galaga.Model.Logos
import Galaga.Model.Pins
import Galaga.Model.HpiIoIntf
import Galaga.Model.UsbKeyboard
import Galaga.Model.UsbWait
import Galaga.Model.HpiTransfer
import Galaga.Motion.Overlap
import Galaga.Motion.UserShip
import Galaga.Motion.ShipRuns
import Galaga.Motion.Invader
import Galaga.Motion.InvaderRuns
import Galaga.Motion.Boss
import Galaga.Motion.BossPath
import Galaga.Motion.Shot
import Galaga.Game.Sprites
import Galaga.Game.HitTest
import Galaga.Game.Signals
import Galaga.Game.Invariant
import Galaga.Game.Reachable
import Galaga.Game.Outcome
import Galaga.Game.Calm
import Galaga.Game.Settling
import Galaga.Game.Tearing
import Galaga.Game.Frames
import Galaga.Game.BossFrames
import Galaga.Game.Scripted
import Galaga.Game.Phases
import Galaga.Game.Pacing
import Galaga.Game.Endgame
import Galaga.Game.BossScreen
import Galaga.Game.Flight
import Galaga.Game.EnterPress
import Galaga.Game.Picture
import Galaga.Game.FreshStart
import Galaga.Game.Landing
import Galaga.Game.Formation
import Galaga.Game.Arbitration
import Galaga.Game.OneShot
import Galaga.Game.PassThrough
import Galaga.Game.Shots
import Galaga.Game.Screens
import Galaga.Game.Broadcast
import Galaga.Game.Displays
import Galaga.Game.Forever
import Galaga.Game.PowerUp
import Galaga.Game.BossAlone
import Galaga.Game.ShipStates
import Galaga.Usb.Strobe
import Galaga.Usb.Transport
import Galaga.Usb.Toggle
import Galaga.Usb.Enumeration
import Galaga.Usb.Progress
import Galaga.Usb.WaitPlaces
import Galaga.Usb.Completion
import Galaga.Usb.Submission
import Galaga.Usb.Report
import Galaga.Game.Reported
