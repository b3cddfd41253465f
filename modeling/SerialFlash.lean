import SerialFlash.Session
import SerialFlash.SectorArray
import SerialFlash.Timestamp
import SerialFlash.Proofs.Addresses
import SerialFlash.Proofs.Delivery
import SerialFlash.Proofs.DiskGeometry
import SerialFlash.Proofs.DriverRefusals
import SerialFlash.Proofs.Effects
import SerialFlash.Proofs.EraseChecks
import SerialFlash.Proofs.EraseGranularity
import SerialFlash.Proofs.EraseReports
import SerialFlash.Proofs.EraseWaits
import SerialFlash.Proofs.FailedWrites
import SerialFlash.Proofs.Framing
import SerialFlash.Proofs.IdentificationOutcome
import SerialFlash.Proofs.Links
import SerialFlash.Proofs.Logs
import SerialFlash.Proofs.NorArray
import SerialFlash.Proofs.Pacing
import SerialFlash.Proofs.PageByPage
import SerialFlash.Proofs.Physics
import SerialFlash.Proofs.ReadResults
import SerialFlash.Proofs.Recognition
import SerialFlash.Proofs.Recovery
import SerialFlash.Proofs.Refusals
import SerialFlash.Proofs.SectorArray
import SerialFlash.Proofs.StateMachine
import SerialFlash.Proofs.StatusBits
import SerialFlash.Proofs.StatusPolls
import SerialFlash.Proofs.StoredWrites
import SerialFlash.Proofs.Timestamps
import SerialFlash.Proofs.Trims
import SerialFlash.Proofs.WriteOrder
import SerialFlash.Proofs.WriteProtocol
