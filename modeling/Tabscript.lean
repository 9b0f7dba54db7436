import Tabscript.Directory
import Tabscript.JavaScript.Layout
import Tabscript.JavaScript.Reading
import Tabscript.Main
import Tabscript.Proofs.AllOrNothing
import Tabscript.Proofs.Blame
import Tabscript.Proofs.CommandLines
import Tabscript.Proofs.Concatenation
import Tabscript.Proofs.Decoding
import Tabscript.Proofs.EmptyLines
import Tabscript.Proofs.Grammar
import Tabscript.Proofs.Indentation
import Tabscript.Proofs.Joins
import Tabscript.Proofs.Lexing
import Tabscript.Proofs.Literals
import Tabscript.Proofs.Names
import Tabscript.Proofs.Progress
import Tabscript.Proofs.Quoting
import Tabscript.Proofs.Requoting
import Tabscript.Proofs.RoundTrip
import Tabscript.Proofs.Scanning
import Tabscript.Proofs.TokenDumps
import Tabscript.Proofs.TreeDumps
import Tabscript.Proofs.ViablePrefix
import Tabscript.Proofs.Writing
import Tabscript.Relocation
import Tabscript.Token.Buffer
import Tabscript.Tree.Grammar
import Tabscript.Tree.Preorder
import Tabscript.Tree.Source
