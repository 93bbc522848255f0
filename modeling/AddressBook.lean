import AddressBook.Main
import AddressBook.Proofs.Directory.Session
import AddressBook.Proofs.Entry.Integers
import AddressBook.Proofs.Entry.Update
import AddressBook.Proofs.Filter.Reading
import AddressBook.Proofs.Formula.Accepted
import AddressBook.Proofs.Membership.Moving
import AddressBook.Proofs.Membership.Operations
import AddressBook.Proofs.Membership.Overlooked
import AddressBook.Proofs.Name.Grammar
import AddressBook.Proofs.Note.Contents
import AddressBook.Proofs.Provisioning.Bystanders
import AddressBook.Proofs.Provisioning.Certified
import AddressBook.Proofs.Provisioning.Concealed
import AddressBook.Proofs.Provisioning.Deletion
import AddressBook.Proofs.Provisioning.Departure
import AddressBook.Proofs.Provisioning.Interchange
import AddressBook.Proofs.Provisioning.Leftovers
import AddressBook.Proofs.Provisioning.LettingIn
import AddressBook.Proofs.Provisioning.Members
import AddressBook.Proofs.Provisioning.Passwords
import AddressBook.Proofs.Provisioning.Shown
import AddressBook.Proofs.Provisioning.Stranding
import AddressBook.Proofs.Provisioning.Stumbling
import AddressBook.Proofs.Provisioning.Surviving
import AddressBook.Proofs.Provisioning.UidSearch
import AddressBook.Proofs.Query.Complement
import AddressBook.Proofs.Query.Lowering
import AddressBook.Proofs.Query.Orderings
import AddressBook.Proofs.Query.Outline
import AddressBook.Proofs.Query.Recased
import AddressBook.Proofs.Query.Respelled
import AddressBook.Proofs.Settings.Variables
