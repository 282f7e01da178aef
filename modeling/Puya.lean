import Puya.Teal.Lowering
import Puya.Teal.Merge
import Puya.Teal.Validity
import Puya.Teal.Labels
import Puya.Wtypes.Basic
import Puya.Wtypes.Constructors
import Puya.Wtypes.Mutability
import Puya.Wtypes.Arc4Equivalent
import Puya.Wtypes.Naming
import Puya.Arc4.Signature
import Puya.Arc4.SignatureNames
import Puya.Arc4.Conversion
import Puya.Wtypes.Base32
import Puya.Wtypes.Base16
import Puya.Wtypes.Literals
import Puya.Wtypes.Storage
import Puya.Lsp.Diagnostics
import Puya.Lsp.SourceText
import Puya.Lsp.Server
import Puya.AwstBuild.BigUInt
import Puya.AwstBuild.Arc4Tuple
import Puya.Arc4.GetSignature
