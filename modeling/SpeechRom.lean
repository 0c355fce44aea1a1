import SpeechRom.Main
import SpeechRom.Rom.Playback
import SpeechRom.Proofs.Attempt
import SpeechRom.Proofs.Pack.Speech
import SpeechRom.Proofs.Rom.Acceptance
import SpeechRom.Proofs.Rom.RoundTrip
import SpeechRom.Proofs.Rom.PlaybackEquivalence
import SpeechRom.Proofs.Rom.Format
import SpeechRom.Proofs.Rom.Consistency
import SpeechRom.Proofs.Pack.Acyclic
import SpeechRom.Proofs.Pack.Violations
import SpeechRom.Proofs.Pack.Contents
import SpeechRom.Proofs.Playable
import SpeechRom.Proofs.Lpc.Listening
import SpeechRom.Proofs.Choices
import SpeechRom.Proofs.Pack.Rings
import SpeechRom.Proofs.Rom.Safety
import SpeechRom.Proofs.Rom.Rings
import SpeechRom.Proofs.Rom.Tiling
import SpeechRom.Proofs.Pack.Checking
import SpeechRom.Proofs.Rom.SilentWords
import SpeechRom.Proofs.Files.Scan
import SpeechRom.Proofs.MissingWords
import SpeechRom.Proofs.Pack.Derivations
import SpeechRom.Proofs.Pack.Chains
import SpeechRom.Proofs.Lpc.Acceptance
import SpeechRom.Proofs.Rom.Listing
import SpeechRom.Proofs.Pack.Printing
import SpeechRom.Proofs.Rom.Renaming
import SpeechRom.Proofs.Rom.Annotations
import SpeechRom.Proofs.Enumeration
import SpeechRom.Proofs.Rom.UsedWords
import SpeechRom.Proofs.StagedBuild
import SpeechRom.Proofs.Rom.Assignments
import SpeechRom.Proofs.Commands.ImageBuilder
import SpeechRom.Proofs.Pack.Growth
