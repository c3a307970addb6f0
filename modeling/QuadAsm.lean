import QuadAsm.Assembly
import QuadAsm.CommandLine.Outcome
import QuadAsm.Main
import QuadAsm.Proofs.Decoding
import QuadAsm.Proofs.DroppedSlots
import QuadAsm.Proofs.FieldAlgebra
import QuadAsm.Proofs.Fields
import QuadAsm.Proofs.LabelDefinitions
import QuadAsm.Proofs.Landing
import QuadAsm.Proofs.NoDefects
import QuadAsm.Proofs.Outcomes
import QuadAsm.Proofs.ReadPorts
import QuadAsm.Proofs.Readings
import QuadAsm.Proofs.SettledShapes
import QuadAsm.Proofs.SlotMeaning
import QuadAsm.Proofs.Stages
import QuadAsm.Proofs.Vocabulary
import QuadAsm.Proofs.WordFields
import QuadAsm.Proofs.WritePorts
import QuadAsm.Proofs.SentenceReading
import QuadAsm.Proofs.WriteCollisions
import QuadAsm.Proofs.Relocation
import QuadAsm.Proofs.Rotation
import QuadAsm.Proofs.Concatenation
import QuadAsm.Proofs.PortChoice
import QuadAsm.Proofs.Places
import QuadAsm.Proofs.Verdict
import QuadAsm.Proofs.SilentLines
import QuadAsm.Proofs.Renderings
import QuadAsm.Proofs.Runs
import QuadAsm.Proofs.Linking
import QuadAsm.Proofs.IdleSlots
import QuadAsm.Proofs.IdleLoads
import QuadAsm.Proofs.FormWords
import QuadAsm.Proofs.TokenCuts
import QuadAsm.Proofs.Immediates
import QuadAsm.Proofs.BranchNames
import QuadAsm.Proofs.OperandNames
