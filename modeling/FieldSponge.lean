import FieldSponge.Main
import FieldSponge.Proofs.Absorption
import FieldSponge.Proofs.SquareRoots
import FieldSponge.Proofs.StoredRuns
import FieldSponge.Proofs.ResidueStates
import FieldSponge.Proofs.RoundBijections
import FieldSponge.Proofs.Numerals
import FieldSponge.Proofs.RenderedNumerals
import FieldSponge.Proofs.TextRoundTrips
import FieldSponge.Proofs.ByteEncodings
import FieldSponge.Proofs.AbsorbedPairs
import FieldSponge.Proofs.StateSeparation
import FieldSponge.Proofs.RoundSchedule
import FieldSponge.Proofs.MontgomeryForm
import FieldSponge.Proofs.JsonValues
import FieldSponge.Proofs.PrintedTables
import FieldSponge.Proofs.IntegerDivision
import FieldSponge.Proofs.PowerLaws
import FieldSponge.Proofs.FieldDivision
import FieldSponge.Proofs.BinaryOperations
import FieldSponge.Proofs.BitwiseArithmetic
import FieldSponge.Proofs.ChunkedRendering
import FieldSponge.Proofs.CandidateDraws
import FieldSponge.Proofs.UniformDraws
import FieldSponge.Proofs.Ordering
import FieldSponge.Proofs.SignedNumerals
import FieldSponge.Proofs.MachineIntegers
import FieldSponge.Proofs.RootSearchRuns
import FieldSponge.Proofs.CarryChains
import FieldSponge.Proofs.ProductRounds
import FieldSponge.Proofs.CommandLines
import FieldSponge.Proofs.ErrorTexts
import FieldSponge.Proofs.FloatTexts
