import ChipVm.Main
import ChipVm.Keyboard
import ChipVm.Tone.Wave
import ChipVm.Picture.Window
import ChipVm.Config.Printer
import ChipVm.Files.Tree
import ChipVm.Proofs.Machine.Invariant
import ChipVm.Proofs.Pacing.Drift
import ChipVm.Proofs.Machine.History
import ChipVm.Proofs.Machine.KeyWait
import ChipVm.Proofs.Machine.Halt
import ChipVm.Proofs.Machine.Independence
import ChipVm.Proofs.Machine.Steady
import ChipVm.Proofs.Pacing.Even
import ChipVm.Proofs.Pacing.Split
import ChipVm.Proofs.Machine.Calls
import ChipVm.Proofs.Machine.FaultSet
import ChipVm.Proofs.Machine.Renderer
import ChipVm.Proofs.Machine.Lockstep
import ChipVm.Proofs.Machine.Reset
import ChipVm.Proofs.Listing
import ChipVm.Proofs.Machine.Commute
import ChipVm.Proofs.Machine.Settings
import ChipVm.Proofs.Machine.Course
import ChipVm.Proofs.Machine.Randomness
import ChipVm.Proofs.Machine.KeySkips
import ChipVm.Proofs.Machine.Stall
import ChipVm.Proofs.Config.RoundTrip
import ChipVm.Proofs.Machine.PlainRun
import ChipVm.Proofs.Sprite
import ChipVm.Proofs.Pacing.Overflow
import ChipVm.Proofs.Pacing.Report
import ChipVm.Proofs.Machine.Arithmetic
import ChipVm.Proofs.Machine.Transfer
import ChipVm.Proofs.Drawing
import ChipVm.Proofs.LitPixels
import ChipVm.Proofs.Instruction.Mnemonic
import ChipVm.Proofs.Register
import ChipVm.Proofs.CommandLine.Layering
import ChipVm.Proofs.Picture
import ChipVm.Proofs.Machine.Window
