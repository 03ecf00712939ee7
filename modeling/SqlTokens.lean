import SqlTokens.Json.Reader
import SqlTokens.Main
import SqlTokens.Settings.Json
import SqlTokens.Proofs.Delimited.Embedding
import SqlTokens.Proofs.Delimited.Name
import SqlTokens.Proofs.Input.Decoding
import SqlTokens.Proofs.Input.PlainList
import SqlTokens.Proofs.Lexing.AnyKind
import SqlTokens.Proofs.Run.Outcome
import SqlTokens.Proofs.Tokenizer.Concatenation
import SqlTokens.Proofs.Tokenizer.Log
import SqlTokens.Proofs.Tokenizer.Single
import SqlTokens.Proofs.Tokenizer.Termination
import SqlTokens.Proofs.Delimited.Ends
import SqlTokens.Proofs.Report.Json
import SqlTokens.Proofs.Report.Lines
import SqlTokens.Proofs.Run.Layers
import SqlTokens.Proofs.Input.Losses
import SqlTokens.Proofs.Lexing.Questions
import SqlTokens.Proofs.Report.Counts
import SqlTokens.Proofs.Settings.RoundTrip
